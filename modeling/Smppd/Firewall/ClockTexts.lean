/-
  CLOCK TEXTS: which texts are read as a time of the day, and what is computed of them (`parse_time` and `check_time`
  of `src/firewall/engine.rs`, `parse_time` and `time_window_matches` of `src/router/matcher.rs`).

  The configuration says `HH:MM`.  Both parsers split the text at its colon and read two numbers of 32 bits, and
  neither asks whether the first is an hour and the second a minute.  So `99:99` compiles, and of a great hour the
  message path computes `hour * 60 + minute` in 32 bits.  The time window of the message firewall, which reads the
  same texts with `NaiveTime`, refuses both.

  What a text means is said without the parsers: `Writes text hour minute`, for numbers of any size.
-/
import Smppd.Lib.Numerals
import Smppd.Firewall.Meaning
import Smppd.Firewall.TimeWindows

set_option linter.unusedVariables false

namespace Smppd.Firewall

open Smppd.Store Smppd.Forwarder Smppd.Filter Numerals Fallible

variable {Rx Tz Ip Net : Type}

/-! ## What a text means -/

/-- Two numbers around a colon. -/
def Writes (text : String) (hour minute : Nat) : Prop :=
  ∃ h m, text.toList = h ++ ':' :: m ∧ Signed h hour ∧ Signed m minute

/-- **A time of the day**: the hour below 24, the minute below 60. -/
def TimeOfDay (text : String) : Prop := ∃ hour minute, Writes text hour minute ∧ hour < 24 ∧ minute < 60

/-- A number of 32 bits is read exactly where it is written. -/
theorem parseU32_eq_some_iff {text : List Char} {n : UInt32} :
    parseU32 (String.ofList text) = some n ↔ Signed text n.toNat := by
  have hall : (∀ c ∈ unsigned text, c.isDigit) ↔ (unsigned text).all Char.isDigit := List.all_eq_true.symm
  rw [signed_iff, numeral_iff, ← and_assoc, hall]
  unfold parseU32
  rw [String.toList_ofList]
  show (if unsigned text ≠ [] ∧ (unsigned text).all Char.isDigit then
      if value (unsigned text) < 2 ^ 32 then some (UInt32.ofNat (value (unsigned text))) else none
    else none) = some n ↔ _
  split
  · rename_i hdigits
    rw [and_iff_right hdigits]
    split
    · rename_i hlt
      rw [Option.some.injEq]
      constructor
      · rintro rfl
        exact (UInt32.toNat_ofNat_of_lt' hlt).symm
      · intro hvalue
        rw [hvalue, UInt32.ofNat_toNat]
    · rename_i hge
      refine iff_of_false (by simp) fun hvalue => hge ?_
      rw [hvalue]
      exact n.toNat_lt
  · rename_i hbad
    exact iff_of_false (by simp) fun h => hbad h.1

theorem colon_notMem_of_signed {text : List Char} {n : Nat} (h : Signed text n) : ':' ∉ text :=
  h.notMem (by decide) (by decide)

/-- Two numbers around a colon are what it splits into. -/
theorem splitOn_colon {h m : List Char} {hour minute : Nat} (hhour : Signed h hour) (hminute : Signed m minute) :
    (h ++ ':' :: m).splitOn ':' = [h, m] := by
  rw [List.splitOn_append_cons_self_of_not_mem (colon_notMem_of_signed hhour),
    List.splitOn_eq_singleton (colon_notMem_of_signed hminute)]

/-- A text writes two numbers in one way. -/
theorem Writes.unique {text : String} {hour minute hour' minute' : Nat} (h : Writes text hour minute)
    (h' : Writes text hour' minute') : hour = hour' ∧ minute = minute' := by
  obtain ⟨a, b, htext, hhour, hminute⟩ := h
  obtain ⟨c, d, htext', hhour', hminute'⟩ := h'
  have hparts : [a, b] = [c, d] := by
    rw [← splitOn_colon hhour hminute, ← splitOn_colon hhour' hminute', ← htext, htext']
  cases hparts
  exact ⟨hhour.unique hhour', hminute.unique hminute'⟩

/-- **The router reads** what is written, if it has 32 bits. -/
theorem route_parseTime_eq_some_iff {text : String} {hour minute : UInt32} :
    Router.parseTime text = some (hour, minute) ↔ Writes text hour.toNat minute.toNat := by
  rw [route_parseTime_parts]
  constructor
  · rintro ⟨h, m, hparts, hhour, hminute⟩
    refine ⟨h, m, ?_, parseU32_eq_some_iff.mp hhour, parseU32_eq_some_iff.mp hminute⟩
    have hjoined : List.intercalate [':'] (text.toList.splitOn ':') = text.toList := List.intercalate_splitOn ':'
    rw [hparts] at hjoined
    rw [← hjoined]
    simp [List.intercalate]
  · rintro ⟨h, m, htext, hhour, hminute⟩
    refine ⟨h, m, ?_, parseU32_eq_some_iff.mpr hhour, parseU32_eq_some_iff.mpr hminute⟩
    rw [htext, splitOn_colon hhour hminute]

/-- **The accepted texts**: two numbers of 32 bits around a colon. -/
theorem exists_parseTime_iff {text : String} :
    (∃ time, Router.parseTime text = some time) ↔
      ∃ hour minute, Writes text hour minute ∧ hour < 2 ^ 32 ∧ minute < 2 ^ 32 := by
  constructor
  · rintro ⟨⟨hour, minute⟩, hparsed⟩
    exact ⟨hour.toNat, minute.toNat, route_parseTime_eq_some_iff.mp hparsed, hour.toNat_lt, minute.toNat_lt⟩
  · rintro ⟨hour, minute, hwrites, hhour, hminute⟩
    refine ⟨(UInt32.ofNat hour, UInt32.ofNat minute), route_parseTime_eq_some_iff.mpr ?_⟩
    rw [UInt32.toNat_ofNat_of_lt' hhour, UInt32.toNat_ofNat_of_lt' hminute]
    exact hwrites

/-! ## What is computed -/

/-- `hour * 60 + minute` does not overflow. -/
def Fits (hour minute : UInt32) : Prop := hour.toNat * 60 + minute.toNat < 2 ^ 32

/-- Then it is computed as it should, and only then. -/
theorem fits_iff {hour minute : UInt32} : Fits hour minute ↔ minutes hour minute = hour.toNat * 60 + minute.toNat := by
  have hsixty : (60 : UInt32).toNat = 60 := rfl
  rw [Fits, minutes, UInt32.toNat_add, UInt32.toNat_mul, hsixty]
  omega

theorem fits_of_lt {hour minute : UInt32} (hhour : hour.toNat < 24) (hminute : minute.toNat < 60) : Fits hour minute := by
  unfold Fits
  omega

/-- A condition on the time compiles to what its texts are read as. -/
theorem compileCondition_time_eq_ok_iff {platform : Platform Rx Tz Ip Net} {start stop : String} {timezone : Option String}
    {startHour startMin endHour endMin : UInt32} :
    compileCondition platform (.time start stop timezone) = .ok (.time startHour startMin endHour endMin timezone) ↔
      parseTime start = .ok (startHour, startMin) ∧ parseTime stop = .ok (endHour, endMin) := by
  rw [compileCondition]
  constructor
  · intro hcompiled
    obtain ⟨⟨hour, min⟩, hstart, hrest⟩ := bind_eq_ok.mp hcompiled
    obtain ⟨⟨hour', min'⟩, hstop, heq⟩ := bind_eq_ok.mp hrest
    cases heq
    exact ⟨hstart, hstop⟩
  · rintro ⟨hstart, hstop⟩
    rw [hstart, hstop]
    rfl

/-- What the clocks show are hours and minutes, as `chrono` says. -/
def ShowsTimes (zones : Router.Zones Tz) : Prop :=
  ∀ tz at_, (zones.read tz at_).hour.toNat < 24 ∧ (zones.read tz at_).minute.toNat < 60

/-- **The arithmetic of a window is safe.** -/
structure SafeWindow (platform : Platform Rx Tz Ip Net) (start stop : String) : Prop where
  /-- The minutes of the clock, in `check_time` and in `time_window_matches`. -/
  clock : ∀ tz at_, Fits (platform.zones.read tz at_).hour (platform.zones.read tz at_).minute
  /-- The minutes of the start and of the end, in `check_time`. -/
  engine : ∀ timezone startHour startMin endHour endMin,
    compileCondition platform (.time start stop timezone) = .ok (.time startHour startMin endHour endMin timezone) →
      Fits startHour startMin ∧ Fits endHour endMin
  /-- The same, in `time_window_matches`. -/
  route : ∀ startH startM endH endM, Router.parseTime start = some (startH, startM) →
    Router.parseTime stop = some (endH, endM) → Fits startH startM ∧ Fits endH endM
  /-- The engine accepts the times of the day. -/
  engine_accepts : ∀ text, text = start ∨ text = stop → ((∃ time, parseTime text = .ok time) ↔ TimeOfDay text)
  /-- So does the router. -/
  route_accepts : ∀ text, text = start ∨ text = stop → ((∃ time, Router.parseTime text = some time) ↔ TimeOfDay text)

/-- If a text writes two numbers of 32 bits, the first is below 24 and the second below 60. -/
def InRange (text : String) : Prop :=
  ∀ hour minute, Writes text hour minute → hour < 2 ^ 32 → minute < 2 ^ 32 → hour < 24 ∧ minute < 60

/-- What is read of a text in range. -/
theorem InRange.lt {text : String} (h : InRange text) {hour minute : UInt32}
    (hparsed : Router.parseTime text = some (hour, minute)) : hour.toNat < 24 ∧ minute.toNat < 60 :=
  h _ _ (route_parseTime_eq_some_iff.mp hparsed) hour.toNat_lt minute.toNat_lt

/-- **The accepted texts are the times of the day** exactly when the text is in range. -/
theorem accepts_times_iff {text : String} :
    ((∃ time, Router.parseTime text = some time) ↔ TimeOfDay text) ↔ InRange text := by
  constructor
  · intro haccepts hour minute hwrites hhour hminute
    have haccepted : ∃ time, Router.parseTime text = some time :=
      exists_parseTime_iff.mpr ⟨hour, minute, hwrites, hhour, hminute⟩
    obtain ⟨hour', minute', hwrites', hhour', hminute'⟩ := haccepts.mp haccepted
    obtain ⟨rfl, rfl⟩ := hwrites.unique hwrites'
    exact ⟨hhour', hminute'⟩
  · intro hrange
    rw [exists_parseTime_iff]
    constructor
    · rintro ⟨hour, minute, hwrites, hhour, hminute⟩
      exact ⟨hour, minute, hwrites, hrange hour minute hwrites hhour hminute⟩
    · rintro ⟨hour, minute, hwrites, hhour, hminute⟩
      exact ⟨hour, minute, hwrites, by omega, by omega⟩

/-- **Safe window arithmetic**, for every start and end: exactly when neither of them writes two numbers of 32 bits
    that are not an hour and a minute. -/
theorem safe_window_iff {platform : Platform Rx Tz Ip Net} (hshows : ShowsTimes platform.zones) (start stop : String) :
    SafeWindow platform start stop ↔ InRange start ∧ InRange stop := by
  constructor
  · intro hsafe
    exact ⟨accepts_times_iff.mp (hsafe.route_accepts start (Or.inl rfl)),
      accepts_times_iff.mp (hsafe.route_accepts stop (Or.inr rfl))⟩
  · rintro ⟨hstart, hstop⟩
    have hrange : ∀ text, text = start ∨ text = stop → InRange text := by
      rintro text (rfl | rfl)
      · exact hstart
      · exact hstop
    have hfits : ∀ text hour minute, text = start ∨ text = stop → Router.parseTime text = some (hour, minute) →
        Fits hour minute := by
      intro text hour minute htext hparsed
      obtain ⟨hhour, hminute⟩ := (hrange text htext).lt hparsed
      exact fits_of_lt hhour hminute
    constructor
    case clock => exact fun tz at_ => fits_of_lt (hshows tz at_).1 (hshows tz at_).2
    case engine =>
      intro timezone startHour startMin endHour endMin hcompiled
      obtain ⟨hread, hread'⟩ := compileCondition_time_eq_ok_iff.mp hcompiled
      exact ⟨hfits start _ _ (Or.inl rfl) (parseTime_eq_ok_iff.mp hread),
        hfits stop _ _ (Or.inr rfl) (parseTime_eq_ok_iff.mp hread')⟩
    case route =>
      intro startH startM endH endM hread hread'
      exact ⟨hfits start _ _ (Or.inl rfl) hread, hfits stop _ _ (Or.inr rfl) hread'⟩
    case engine_accepts =>
      intro text htext
      simp only [parseTime_eq_ok_iff]
      exact accepts_times_iff.mpr (hrange text htext)
    case route_accepts => exact fun text htext => accepts_times_iff.mpr (hrange text htext)

/-! ## In Maputo -/

theorem maputoZones_showsTimes : ShowsTimes maputoPlatform.zones :=
  fun tz at_ => ⟨maputoChrono.hour_lt tz at_, maputoChrono.minute_lt tz at_⟩

/-- A text that is read as a time of the day is in range. -/
theorem inRange_of_parseTime {text : String} {hour minute : UInt32} (hparsed : Router.parseTime text = some (hour, minute))
    (hhour : hour.toNat < 24) (hminute : minute.toNat < 60) : InRange text := by
  intro hour' minute' hwrites _ _
  obtain ⟨rfl, rfl⟩ := (route_parseTime_eq_some_iff.mp hparsed).unique hwrites
  exact ⟨hhour, hminute⟩

/-- The night is safe. -/
theorem maputo_night_safe : SafeWindow maputoPlatform "22:00" "06:00" := by
  have hstart : Router.parseTime "22:00" = some (22, 0) := by decide
  have hstop : Router.parseTime "06:00" = some (6, 0) := by decide
  exact (safe_window_iff maputoZones_showsTimes "22:00" "06:00").mpr
    ⟨inRange_of_parseTime hstart (by decide) (by decide), inRange_of_parseTime hstop (by decide) (by decide)⟩

/-- **No time of the day, and accepted**: of the end, `4294967295 * 60` is computed in 32 bits. -/
theorem great_hour_unsafe :
    compileCondition maputoPlatform (.time "99:99" "4294967295:00" none) = .ok (.time 99 99 4294967295 0 none) ∧
      Router.parseTime "99:99" = some (99, 99) ∧ Router.parseTime "4294967295:00" = some (4294967295, 0) ∧
      ¬ TimeOfDay "99:99" ∧ minutes 4294967295 0 = 4294967236 ∧
      ¬ SafeWindow maputoPlatform "99:99" "4294967295:00" := by
  have hstart : Router.parseTime "99:99" = some (99, 99) := by decide
  have hstop : Router.parseTime "4294967295:00" = some (4294967295, 0) := by decide +kernel
  have hcompiled : compileCondition maputoPlatform (.time "99:99" "4294967295:00" none) =
      .ok (.time 99 99 4294967295 0 none) :=
    compileCondition_time_eq_ok_iff.mpr ⟨parseTime_eq_ok_iff.mpr hstart, parseTime_eq_ok_iff.mpr hstop⟩
  have hnever : ¬ TimeOfDay "99:99" := by
    rintro ⟨hour, minute, hwrites, hhour, hminute⟩
    obtain ⟨rfl, rfl⟩ := (route_parseTime_eq_some_iff.mp hstart).unique hwrites
    exact absurd hhour (by decide)
  refine ⟨hcompiled, hstart, hstop, hnever, by decide, fun hsafe => hnever ?_⟩
  exact (hsafe.route_accepts "99:99" (Or.inl rfl)).mp ⟨_, hstart⟩

end Smppd.Firewall
