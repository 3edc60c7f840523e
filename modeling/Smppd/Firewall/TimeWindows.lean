/-
  TIME WINDOWS, one meaning or three: the window of a route (`src/router/matcher.rs`), of a rule of the message
  firewall (`src/filter/firewall.rs`) and of a condition of the rule engine (`src/firewall/engine.rs`).

  All three read the same `HH:MM` and compare the same way, but they differ in what the window ends with and in what
  is compared with it:

  * a route: `start ≤ L < stop`, in minutes `L` of the window's timezone;
  * a rule: `start ≤ L ≤ stop`, in nanoseconds of the window's timezone;
  * a condition: `start ≤ U ≤ stop`, in minutes `U` of UTC.  The timezone is read from the configuration and then
    NOT used.

  Windows that pass midnight are in `Windows.within`.  With its four comparisons no case has to be gone through:
  `same_answer_iff` says when the three agree.  Nothing is assumed of a timezone.
-/
import Smppd.Filter.Nights
import Smppd.Firewall.Engine

set_option linter.unusedVariables false

namespace Smppd.Filter

open Smppd.Store Router

variable {Rx Tz : Type}

/-! ## Times as they are written -/

/-- A time of the day, to the minute. -/
structure HourMinute where
  hour : Fin 24
  minute : Fin 60

/-- A number below one hundred, in two digits. -/
def twoDigits (n : Nat) : List Char := [Nat.digitChar (n / 10), Nat.digitChar (n % 10)]

/-- `HH:MM`. -/
def HourMinute.text (self : HourMinute) : String := String.ofList (twoDigits self.hour ++ ':' :: twoDigits self.minute)

/-- Minutes since midnight. -/
def HourMinute.inMinutes (self : HourMinute) : Nat := self.hour * 60 + self.minute

theorem parseU32_twoDigits (n : Fin 60) :
    Smppd.Forwarder.parseU32 (String.ofList (twoDigits n)) = some (UInt32.ofNat n) := by
  revert n
  decide

theorem colon_notMem_twoDigits (n : Fin 60) : ':' ∉ twoDigits n := by
  revert n
  decide

/-- **What is written is read.** -/
theorem parseTime_text (time : HourMinute) :
    parseTime time.text = some (UInt32.ofNat time.hour, UInt32.ofNat time.minute) := by
  have hhour := parseU32_twoDigits (time.hour.castLE (by omega))
  have hcolon := colon_notMem_twoDigits (time.hour.castLE (by omega))
  rw [Fin.val_castLE] at hhour hcolon
  rw [parseTime, HourMinute.text, String.toList_ofList, List.splitOn_append_cons_self_of_not_mem hcolon,
    List.splitOn_eq_singleton (colon_notMem_twoDigits time.minute)]
  simp only [hhour, parseU32_twoDigits]
  rfl

/-- Minutes do not wrap. -/
theorem minutes_eq {hour minute : UInt32} (hhour : hour.toNat < 24) (hminute : minute.toNat < 60) :
    minutes hour minute = hour.toNat * 60 + minute.toNat := by
  have hsixty : (60 : UInt32).toNat = 60 := rfl
  rw [minutes, UInt32.toNat_add, UInt32.toNat_mul, hsixty]
  omega

theorem toNat_ofNat_of_lt_sixty {n : Nat} (h : n < 60) : (UInt32.ofNat n).toNat = n :=
  UInt32.toNat_ofNat_of_lt' (h.trans (by decide))

theorem minutes_text (time : HourMinute) :
    minutes (UInt32.ofNat time.hour) (UInt32.ofNat time.minute) = time.inMinutes := by
  have hhour : (UInt32.ofNat time.hour).toNat = time.hour := toNat_ofNat_of_lt_sixty (by omega)
  have hminute : (UInt32.ofNat time.minute).toNat = time.minute := toNat_ofNat_of_lt_sixty time.minute.isLt
  rw [minutes_eq (by omega) (by omega), hhour, hminute, HourMinute.inMinutes]

/-- `TimeWindow::new`; `parseNaive` is `NaiveTime::parse_from_str` with the format `%H:%M`. -/
def TimeWindow.new (zones : Zones Tz) (parseNaive : String → Option NaiveTime) (start stop timezone : String) :
    Option (TimeWindow Tz) := do
  let start ← parseNaive start
  let stop ← parseNaive stop
  let tz ← zones.parse timezone
  pure { start := start, stop := stop, days := [], timezone := tz }

/-- `with_days`. -/
def TimeWindow.withDays (days : List Weekday) (self : TimeWindow Tz) : TimeWindow Tz := { self with days := days }

/-! ## What the clocks show -/

/-- What `chrono` is known to do: it reads `HH:MM`, and its clocks show times of the day. -/
structure Chrono (texts : Texts Rx Tz) where
  parseNaive : String → Option NaiveTime
  parses : ∀ time : HourMinute, parseNaive time.text = some (time.inMinutes * 60000000000)
  hour_lt : ∀ tz at_, (texts.zones.read tz at_).hour.toNat < 24
  minute_lt : ∀ tz at_, (texts.zones.read tz at_).minute.toNat < 60
  intoMinute_lt : ∀ tz at_, texts.intoMinute tz at_ < 60000000000

/-- A minute, in nanoseconds, against one with what is beyond it. -/
theorem le_nanos_iff {time shown beyond : Nat} (h : beyond < 60000000000) :
    time * 60000000000 ≤ shown * 60000000000 + beyond ↔ time ≤ shown := by
  omega

theorem lt_nanos_iff {time shown beyond : Nat} (h : beyond < 60000000000) :
    time * 60000000000 < shown * 60000000000 + beyond ↔ time ≤ shown ∧ ¬ (shown = time ∧ beyond = 0) := by
  omega

/-- A time of the day is a minute, and what is beyond it. -/
theorem Chrono.timeOfDay_eq {texts : Texts Rx Tz} (chrono : Chrono texts) (tz : Tz) (at_ : SystemTime) :
    texts.timeOfDay tz at_ = minutesShown texts.zones tz at_ * 60000000000 + texts.intoMinute tz at_ := by
  rw [Texts.timeOfDay, minutesShown, minutes_eq (chrono.hour_lt tz at_) (chrono.minute_lt tz at_)]

end Smppd.Filter

namespace Smppd.Firewall

open Smppd.Store Smppd.Filter Windows Fallible

variable {Rx Tz Ip Net : Type}

/-! ## The condition -/

/-- What the route reads: two numbers around a colon. -/
theorem route_parseTime_parts {text : String} {time : UInt32 × UInt32} :
    Router.parseTime text = some time ↔ ∃ h m, text.toList.splitOn ':' = [h, m] ∧
      Forwarder.parseU32 (String.ofList h) = some time.1 ∧ Forwarder.parseU32 (String.ofList m) = some time.2 := by
  rw [Router.parseTime]
  constructor
  · intro hparsed
    split at hparsed
    · rename_i h m hparts
      obtain ⟨hour, hhour, hrest⟩ := Option.bind_eq_some_iff.mp hparsed
      obtain ⟨minute, hminute, heq⟩ := Option.bind_eq_some_iff.mp hrest
      cases heq
      exact ⟨h, m, hparts, hhour, hminute⟩
    · cases hparsed
  · rintro ⟨h, m, hparts, hhour, hminute⟩
    rw [hparts]
    simp only [hhour, hminute]
    rfl

/-- What the condition reads is the same. -/
theorem parseTime_eq_ok_iff {text : String} {time : UInt32 × UInt32} :
    parseTime text = .ok time ↔ Router.parseTime text = some time := by
  rw [route_parseTime_parts, parseTime]
  constructor
  · intro hparsed
    split at hparsed
    · rename_i h m hparts
      obtain ⟨hour, hhour, hrest⟩ := bind_eq_ok.mp hparsed
      obtain ⟨minute, hminute, heq⟩ := bind_eq_ok.mp hrest
      cases heq
      exact ⟨h, m, hparts, orInvalid_eq_ok.mp hhour, orInvalid_eq_ok.mp hminute⟩
    · cases hparsed
  · rintro ⟨h, m, hparts, hhour, hminute⟩
    rw [hparts]
    simp only [hhour, hminute]
    rfl

/-- **The time of a condition**: a test of the minutes of UTC. -/
theorem checkTime_iff (platform : Platform Rx Tz Ip Net) (clock : Clock) (startHour startMin endHour endMin : UInt32) :
    checkTime platform clock startHour startMin endHour endMin = true ↔
      withinClosed (minutes startHour startMin) (minutes endHour endMin)
        (minutesShown platform.zones platform.zones.utc clock.wall) := by
  rw [checkTime, withinClosed]
  show (if startHour * 60 + startMin ≤ endHour * 60 + endMin then _ else _) = true ↔ _
  split
  · rename_i hle
    rw [if_pos (minutes_le.mpr hle), Bool.and_eq_true_iff, decide_eq_true_iff, decide_eq_true_iff]
    exact and_congr minutes_le.symm minutes_le.symm
  · rename_i hlt
    rw [if_neg fun h => hlt (minutes_le.mp h), Bool.or_eq_true_iff, decide_eq_true_iff, decide_eq_true_iff]
    exact or_congr minutes_le.symm minutes_le.symm

/-- **A condition compiles**, and then asks for the minutes of UTC. -/
theorem compileCondition_time (platform : Platform Rx Tz Ip Net) (start stop : HourMinute) (timezone : Option String) :
    compileCondition platform (.time start.text stop.text timezone) =
      .ok (.time (UInt32.ofNat start.hour) (UInt32.ofNat start.minute) (UInt32.ofNat stop.hour)
        (UInt32.ofNat stop.minute) timezone) := by
  rw [compileCondition, parseTime_eq_ok_iff.mpr (parseTime_text start), parseTime_eq_ok_iff.mpr (parseTime_text stop)]
  rfl

/-! ## The three of them -/

/-- Two times give the same answer when they are on different sides of the start and of the end together. -/
theorem same_side_iff {night started ended started' ended' : Prop} :
    (((started ↔ ended) ↔ night) ↔ ((started' ↔ ended') ↔ night)) ↔ ((started' ↔ started) ↔ (ended' ↔ ended)) := by
  grind

/-- The window of a route, in comparisons. -/
theorem route_matches_iff {zones : Router.Zones Tz} {route : Smppd.TimeWindow} {start stop : HourMinute}
    (hstart : route.start = start.text) (hstop : route.stop = stop.text) {tz : Tz}
    (hname : zones.parse route.timezone = some tz) (hroute : ∀ day, ListsDay route day) (wall : SystemTime) :
    Router.timeWindowMatches zones wall route = true ↔
      ((start.inMinutes ≤ minutesShown zones tz wall ↔ stop.inMinutes ≤ minutesShown zones tz wall) ↔
        stop.inMinutes < start.inMinutes) := by
  have hzone : windowZone zones route = tz := by rw [windowZone, hname, Option.getD_some]
  rw [timeWindowMatches_iff (hstart ▸ parseTime_text start) (hstop ▸ parseTime_text stop), and_iff_right (hroute _),
    minutes_text, minutes_text, hzone, within_iff]

/-- The window of a rule: it ends later than the one of the route, by the first nanosecond of the end. -/
theorem rule_isActive_iff {texts : Texts Rx Tz} (chrono : Chrono texts) {rule : Filter.TimeWindow Tz}
    {start stop : HourMinute} (hstart : rule.start = start.inMinutes * 60000000000)
    (hstop : rule.stop = stop.inMinutes * 60000000000) {tz : Tz} (hzone : rule.timezone = tz)
    (hrule : ∀ day, rule.ListsDay day) (clock : Clock) :
    rule.isActive texts clock = true ↔
      ((start.inMinutes ≤ minutesShown texts.zones tz clock.wall ↔
          stop.inMinutes ≤ minutesShown texts.zones tz clock.wall ∧
            ¬ (minutesShown texts.zones tz clock.wall = stop.inMinutes ∧
              texts.intoMinute tz clock.wall = 0)) ↔
        stop.inMinutes < start.inMinutes) := by
  have hlt := chrono.intoMinute_lt tz clock.wall
  rw [isActive_iff, and_iff_right (hrule _), withinClosed_iff, hzone, chrono.timeOfDay_eq, hstart,
    hstop]
  exact iff_congr (iff_congr (le_nanos_iff hlt) (lt_nanos_iff hlt)) (Nat.mul_lt_mul_right (by decide))

variable [DecidableEq Ip]

/-- The condition. -/
theorem condition_holds_iff {platform : Platform Rx Tz Ip Net} {texts : Texts Rx Tz} (hzones : platform.zones = texts.zones)
    (start stop : HourMinute) (timezone : Option String) (lists : Lists) (clock : Clock) (ctx : EvaluationContext Ip)
    (rates : RateLimits) :
    (evaluateCondition platform lists clock ctx (.time (UInt32.ofNat start.hour) (UInt32.ofNat start.minute)
        (UInt32.ofNat stop.hour) (UInt32.ofNat stop.minute) timezone) rates).1 = true ↔
      ((start.inMinutes ≤ minutesShown texts.zones texts.zones.utc clock.wall ↔
          stop.inMinutes < minutesShown texts.zones texts.zones.utc clock.wall) ↔
        stop.inMinutes < start.inMinutes) := by
  rw [evaluateCondition, checkTime_iff, minutes_text, minutes_text, withinClosed_iff, hzones]

/-- The window of a route, of a rule and of a condition give the same answer. -/
def SameAnswer (platform : Platform Rx Tz Ip Net) (texts : Texts Rx Tz) (lists : Lists) (clock : Clock)
    (ctx : EvaluationContext Ip) (rates : RateLimits) (route : Smppd.TimeWindow) (rule : Filter.TimeWindow Tz)
    (condition : CompiledCondition Rx Ip Net) : Prop :=
  Router.timeWindowMatches texts.zones clock.wall route = rule.isActive texts clock ∧
    rule.isActive texts clock = (evaluateCondition platform lists clock ctx condition rates).1

/-- **One meaning of a time window**, for every start and end, on all days: the three agree exactly when the clock of
    the timezone is not right at the end, and the clock of UTC is on the other side of the start if and only if it is
    on the other side of the end. -/
theorem same_answer_iff {platform : Platform Rx Tz Ip Net} {texts : Texts Rx Tz} (hzones : platform.zones = texts.zones)
    (chrono : Chrono texts) {start stop : HourMinute} {route : Smppd.TimeWindow} (hstart : route.start = start.text)
    (hstop : route.stop = stop.text) {tz : Tz} (hname : texts.zones.parse route.timezone = some tz)
    (hroute : ∀ day, ListsDay route day) {days : List Router.Weekday} (hrule : days = [] ∨ ∀ day, day ∈ days)
    (lists : Lists) (clock : Clock) (ctx : EvaluationContext Ip) (rates : RateLimits) :
    ∃ rule condition, TimeWindow.new texts.zones chrono.parseNaive route.start route.stop route.timezone = some rule ∧
      compileCondition platform (.time route.start route.stop (some route.timezone)) = .ok condition ∧
      (SameAnswer platform texts lists clock ctx rates route (rule.withDays days) condition ↔
        ¬ (minutesShown texts.zones tz clock.wall = stop.inMinutes ∧ texts.intoMinute tz clock.wall = 0) ∧
          ((start.inMinutes ≤ minutesShown texts.zones texts.zones.utc clock.wall ↔
              start.inMinutes ≤ minutesShown texts.zones tz clock.wall) ↔
            (stop.inMinutes < minutesShown texts.zones texts.zones.utc clock.wall ↔
              stop.inMinutes ≤ minutesShown texts.zones tz clock.wall))) := by
  have hnew : TimeWindow.new texts.zones chrono.parseNaive route.start route.stop route.timezone =
      some ⟨start.inMinutes * 60000000000, stop.inMinutes * 60000000000, [], tz⟩ := by
    rw [TimeWindow.new, hstart, hstop, chrono.parses, chrono.parses, hname]
    rfl
  have hcompiled := compileCondition_time platform start stop (some route.timezone)
  rw [← hstart, ← hstop] at hcompiled
  refine ⟨_, _, hnew, hcompiled, ?_⟩
  have hzone : (TimeWindow.withDays days
      ⟨start.inMinutes * 60000000000, stop.inMinutes * 60000000000, [], tz⟩).timezone = tz := rfl
  refine (and_congr Bool.eq_iff_iff Bool.eq_iff_iff).trans ?_
  rw [route_matches_iff hstart hstop hname hroute,
    condition_holds_iff hzones, rule_isActive_iff chrono rfl rfl hzone fun day => hrule.imp_right fun h => h day]
  by_cases hend : minutesShown texts.zones tz clock.wall = stop.inMinutes ∧ texts.intoMinute tz clock.wall = 0
  · -- Right at the end, the route is closed and the rule is not.
    have hle : stop.inMinutes ≤ minutesShown texts.zones tz clock.wall := hend.1.ge
    exact iff_of_false (fun h => (((same_side_iff.mp h.1).mp Iff.rfl).mpr hle).2 hend) fun h => h.1 hend
  · rw [iff_true_intro hend, and_true, true_and, and_iff_right Iff.rfl]
    exact same_side_iff

/-! ## In Maputo, two hours ahead of UTC -/

/-- The clocks of a world with two timezones, each so many hours ahead of UTC. -/
def maputoZones : Router.Zones Int where
  parse := fun name => if name = "UTC" then some 0 else if name = "Africa/Maputo" then some 2 else none
  utc := 0
  read := fun hours at_ => utcZones.read () (at_ + hours * 3600000000000)

/-- Libraries that know these clocks, for the message firewall. -/
def maputoTexts : Texts Empty Int where
  regexes := Texts.bare.regexes
  zones := maputoZones
  intoMinute := fun _ at_ => (at_ % 60000000000).toNat
  toLowercase := Texts.bare.toLowercase

/-- For the rule engine. -/
def maputoPlatform : Platform Empty Int String Empty where
  regexes := Platform.bare.regexes
  zones := maputoZones
  nets := Platform.bare.nets
  parseIp := Platform.bare.parseIp
  ipText := Platform.bare.ipText
  toLowercase := Platform.bare.toLowercase

theorem toNat_emod_lt (n : Int) {k : Nat} (hpos : 0 < k) (hk : k ≤ 60) : (UInt32.ofNat (n % k).toNat).toNat < k := by
  have hnonneg : 0 ≤ n % k := Int.emod_nonneg n (by omega)
  have hlt : n % k < k := Int.emod_lt_of_pos n (by omega)
  rw [toNat_ofNat_of_lt_sixty (by omega)]
  omega

/-- They read `HH:MM` and show times of the day. -/
def maputoChrono : Chrono maputoTexts where
  parseNaive := fun text => (Router.parseTime text).bind fun time =>
    if time.1.toNat < 24 ∧ time.2.toNat < 60 then some (minutes time.1 time.2 * 60000000000) else none
  parses := fun time => by
    rw [parseTime_text, Option.bind_some, minutes_text, toNat_ofNat_of_lt_sixty (by omega),
      toNat_ofNat_of_lt_sixty time.minute.isLt, if_pos ⟨time.hour.isLt, time.minute.isLt⟩]
  hour_lt := fun _ _ => toNat_emod_lt _ (by decide) (by decide)
  minute_lt := fun _ _ => toNat_emod_lt _ (by decide) (by decide)
  intoMinute_lt := fun _ at_ => by
    show (at_ % 60000000000).toNat < 60000000000
    omega

/-- From ten in the evening to six in the morning, in Maputo. -/
def maputoNight : Smppd.TimeWindow := { start := "22:00", stop := "06:00", timezone := "Africa/Maputo" }

/-- Midnight in Maputo, on the first of January 1970. -/
def maputoMidnight : Clock := ⟨0, 22 * 3600000000000⟩

/-- Half past ten in the evening. -/
def maputoEvening : Clock := ⟨0, (20 * 60 + 30) * 60000000000⟩

theorem maputoNight_listsDay (day : Router.Weekday) : ListsDay maputoNight day := by
  have hany : (maputoNight.days.any fun d => Router.eqIgnoreAsciiCase d day.dayName) = true := by
    cases day <;> decide
  exact List.any_eq_true.mp hany

/-- At midnight in Maputo it is ten in the evening in UTC, and the three agree. -/
theorem maputo_midnight_same :
    ∃ rule condition, TimeWindow.new maputoZones maputoChrono.parseNaive "22:00" "06:00" "Africa/Maputo" = some rule ∧
      compileCondition maputoPlatform (.time "22:00" "06:00" (some "Africa/Maputo")) = .ok condition ∧
      SameAnswer maputoPlatform maputoTexts ∅ maputoMidnight (.new "a" "b" "esme" "hi") ∅ maputoNight
        (rule.withDays []) condition := by
  have hzones : maputoPlatform.zones = maputoTexts.zones := rfl
  have hstart : maputoNight.start = (⟨22, 0⟩ : HourMinute).text := rfl
  have hstop : maputoNight.stop = (⟨6, 0⟩ : HourMinute).text := rfl
  have hname : maputoTexts.zones.parse maputoNight.timezone = some 2 := rfl
  obtain ⟨rule, condition, hnew, hcompiled, hsame⟩ := same_answer_iff hzones maputoChrono hstart hstop hname
    maputoNight_listsDay (Or.inl rfl) ∅ maputoMidnight (.new "a" "b" "esme" "hi") ∅
  exact ⟨rule, condition, hnew, hcompiled, hsame.mpr (by decide)⟩

/-- **In the evening the condition does not hold**: in UTC it is two hours before its start. -/
theorem maputo_evening_differs :
    ∃ rule condition, TimeWindow.new maputoZones maputoChrono.parseNaive "22:00" "06:00" "Africa/Maputo" = some rule ∧
      compileCondition maputoPlatform (.time "22:00" "06:00" (some "Africa/Maputo")) = .ok condition ∧
      Router.timeWindowMatches maputoZones maputoEvening.wall maputoNight = true ∧
      (rule.withDays []).isActive maputoTexts maputoEvening = true ∧
      (evaluateCondition maputoPlatform ∅ maputoEvening (.new "a" "b" "esme" "hi") condition ∅).1 = false ∧
      ¬ SameAnswer maputoPlatform maputoTexts ∅ maputoEvening (.new "a" "b" "esme" "hi") ∅ maputoNight
        (rule.withDays []) condition := by
  have hcompiled := compileCondition_time maputoPlatform ⟨22, 0⟩ ⟨6, 0⟩ (some "Africa/Maputo")
  have hroute : Router.timeWindowMatches maputoZones maputoEvening.wall maputoNight = true := by decide
  have hrule : Filter.TimeWindow.isActive maputoTexts maputoEvening
      ⟨22 * 60 * 60000000000, 6 * 60 * 60000000000, [], 2⟩ = true := by decide
  have hcondition : (evaluateCondition maputoPlatform ∅ maputoEvening (.new "a" "b" "esme" "hi")
      (.time 22 0 6 0 (some "Africa/Maputo")) ∅).1 = false := by
    rw [evaluateCondition]
    decide
  exact ⟨_, _, rfl, hcompiled, hroute, hrule, hcondition,
    fun hsame => Bool.false_ne_true (hcondition.symm.trans (hsame.2.symm.trans hrule))⟩

end Smppd.Firewall
