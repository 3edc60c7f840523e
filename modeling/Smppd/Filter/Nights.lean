/-
  NIGHTS: time windows that pass midnight, in the router and in the firewall.

  Both handle a window whose start is later than its end ("overnight windows"), and both have a list of days.  The
  two are tested one beside the other: today must be listed, and the time must be past the start OR before the end.
  So the hours after midnight are taken for a part of the day they fall on.  A window from Friday 22:00 to 06:00 is
  not open on Saturday at 01:00; it is open on Friday at 01:00.

  A night, as a set of moments, belongs to the day on which it starts (`Windows.nights`).  `overnight_iff` says when
  the tests agree with that, for both.  The local date is a parameter with one law, that the weekday is the one of
  the date (`Calendar`).
-/
import Smppd.Lib.Windows
import Smppd.Filter.Firewall

set_option linter.unusedVariables false

namespace Smppd.Router

open Smppd.Store

/-- The weekday of a date, which is the number of days since the day before a Monday. -/
def Weekday.ofDay (day : Int) : Weekday :=
  match (day % 7).toNat with
  | 0 => .sun
  | 1 => .mon
  | 2 => .tue
  | 3 => .wed
  | 4 => .thu
  | 5 => .fri
  | _ => .sat

/-- The local dates of timezones. -/
structure Calendar {Tz : Type} (zones : Zones Tz) where
  date : Tz → SystemTime → Int
  /-- What the clock shows is the weekday of the date. -/
  weekday : ∀ tz at_, (zones.read tz at_).weekday = .ofDay (date tz at_)

end Smppd.Router

namespace Smppd.Filter

open Smppd.Store Router Windows

variable {Rx Tz : Type}

/-! ## What the two test -/

/-- Minutes since midnight, as they are added up. -/
def minutes (hour minute : UInt32) : Nat := (hour * 60 + minute).toNat

theorem minutes_le {h m h' m' : UInt32} : minutes h m ≤ minutes h' m' ↔ h * 60 + m ≤ h' * 60 + m' :=
  UInt32.le_iff_toNat_le.symm

/-- The timezone of a window of the router. -/
def windowZone (zones : Zones Tz) (window : Smppd.TimeWindow) : Tz := (zones.parse window.timezone).getD zones.utc

/-- The minutes that the clock of a timezone shows. -/
def minutesShown (zones : Zones Tz) (tz : Tz) (at_ : SystemTime) : Nat :=
  minutes (zones.read tz at_).hour (zones.read tz at_).minute

/-- A window of the router lists the day. -/
def ListsDay (window : Smppd.TimeWindow) (day : Weekday) : Prop :=
  ∃ d ∈ window.days, eqIgnoreAsciiCase d day.dayName = true

/-- A window of the firewall does; no day stands for all of them. -/
def TimeWindow.ListsDay (window : TimeWindow Tz) (day : Weekday) : Prop := window.days = [] ∨ day ∈ window.days

/-- **The window of a route**: a test of the day, and a test of the minutes. -/
theorem timeWindowMatches_iff {zones : Zones Tz} {window : Smppd.TimeWindow} {startH startM endH endM : UInt32}
    (hstart : parseTime window.start = some (startH, startM)) (hstop : parseTime window.stop = some (endH, endM))
    (wall : SystemTime) :
    timeWindowMatches zones wall window = true ↔
      ListsDay window (zones.read (windowZone zones window) wall).weekday ∧
        within (minutes startH startM) (minutes endH endM) (minutesShown zones (windowZone zones window) wall) := by
  have hday : ListsDay window (zones.read (windowZone zones window) wall).weekday ↔
      (window.days.any fun d =>
        eqIgnoreAsciiCase d (zones.read ((zones.parse window.timezone).getD zones.utc) wall).weekday.dayName) = true :=
    List.any_eq_true.symm
  rw [timeWindowMatches, hstart, hstop, hday, within]
  cases window.days.any fun d =>
    eqIgnoreAsciiCase d (zones.read ((zones.parse window.timezone).getD zones.utc) wall).weekday.dayName with
  | false => exact iff_of_false Bool.false_ne_true fun h => Bool.false_ne_true h.1
  | true =>
    rw [and_iff_right rfl]
    show (if startH * 60 + startM ≤ endH * 60 + endM then _ else _) = true ↔ _
    split
    · rename_i hle
      rw [if_pos (minutes_le.mpr hle), Bool.and_eq_true_iff, decide_eq_true_iff, decide_eq_true_iff]
      exact Iff.rfl
    · rename_i hlt
      rw [if_neg fun h => hlt (minutes_le.mp h), Bool.or_eq_true_iff, decide_eq_true_iff,
        decide_eq_true_iff]
      exact Iff.rfl

/-- **The window of a rule**: a test of the day, and a test of the time. -/
theorem isActive_iff (texts : Texts Rx Tz) (clock : Clock) (window : TimeWindow Tz) :
    window.isActive texts clock = true ↔
      window.ListsDay (texts.zones.read window.timezone clock.wall).weekday ∧
        withinClosed window.start window.stop (texts.timeOfDay window.timezone clock.wall) := by
  have hday : window.ListsDay (texts.zones.read window.timezone clock.wall).weekday ↔
      (!window.days.isEmpty && !window.days.contains (texts.zones.read window.timezone clock.wall).weekday) = false := by
    simp [TimeWindow.ListsDay, or_iff_not_imp_left]
  rw [TimeWindow.isActive, hday, withinClosed]
  cases !window.days.isEmpty && !window.days.contains (texts.zones.read window.timezone clock.wall).weekday with
  | true => exact iff_of_false Bool.false_ne_true fun h => Bool.false_ne_true h.1.symm
  | false =>
    rw [and_iff_right rfl]
    show (if window.start ≤ window.stop then _ else _) = true ↔ _
    split
    · rw [Bool.and_eq_true_iff, decide_eq_true_iff, decide_eq_true_iff]
    · rw [Bool.or_eq_true_iff, decide_eq_true_iff, decide_eq_true_iff]

/-! ## What they should test -/

/-- The moment that the clock of a window of the router shows, in minutes. -/
def routerMoment {zones : Zones Tz} (calendar : Calendar zones) (window : Smppd.TimeWindow) (at_ : SystemTime) :
    Int × Nat :=
  (calendar.date (windowZone zones window) at_, minutesShown zones (windowZone zones window) at_)

/-- The moment that the clock of a window of the firewall shows. -/
def ruleMoment (texts : Texts Rx Tz) (calendar : Calendar texts.zones) (window : TimeWindow Tz) (at_ : SystemTime) :
    Int × NaiveTime :=
  (calendar.date window.timezone at_, texts.timeOfDay window.timezone at_)

/-- **Overnight windows belong to the day they start**, in the router and in the firewall, exactly when, before the
    end of the window, today and yesterday are both listed, or neither is. -/
theorem overnight_iff (texts : Texts Rx Tz) (calendar : Calendar texts.zones) {route : Smppd.TimeWindow}
    {startH startM endH endM : UInt32} (hstart : parseTime route.start = some (startH, startM))
    (hstop : parseTime route.stop = some (endH, endM)) (hroute : minutes endH endM < minutes startH startM)
    {rule : TimeWindow Tz} (hrule : rule.stop < rule.start) (clock : Clock) :
    ((timeWindowMatches texts.zones clock.wall route = true ↔
          routerMoment calendar route clock.wall ∈
            nights (fun day => ListsDay route (.ofDay day)) (minutes startH startM) (minutes endH endM)) ↔
        (minutesShown texts.zones (windowZone texts.zones route) clock.wall < minutes endH endM →
          (ListsDay route (.ofDay (calendar.date (windowZone texts.zones route) clock.wall)) ↔
            ListsDay route (.ofDay (calendar.date (windowZone texts.zones route) clock.wall - 1))))) ∧
      ((rule.isActive texts clock = true ↔
          ruleMoment texts calendar rule clock.wall ∈ nightsClosed (fun day => rule.ListsDay (.ofDay day)) rule.start rule.stop) ↔
        (texts.timeOfDay rule.timezone clock.wall ≤ rule.stop →
          (rule.ListsDay (.ofDay (calendar.date rule.timezone clock.wall)) ↔
            rule.ListsDay (.ofDay (calendar.date rule.timezone clock.wall - 1))))) := by
  constructor
  · rw [timeWindowMatches_iff hstart hstop, calendar.weekday]
    exact within_iff_mem_nights (fun day => ListsDay route (.ofDay day)) hroute
  · rw [isActive_iff, calendar.weekday]
    exact withinClosed_iff_mem_nightsClosed (fun day => rule.ListsDay (.ofDay day)) hrule

/-! ## A Friday night -/

/-- The clocks of a world in which there is no timezone but UTC; the first of January 1970 is a Thursday. -/
def utcZones : Zones Unit where
  parse := fun name => if name = "UTC" then some () else none
  utc := ()
  read := fun _ at_ =>
    { weekday := .ofDay (at_ / 86400000000000 + 719163)
      hour := UInt32.ofNat (at_ / 3600000000000 % 24).toNat
      minute := UInt32.ofNat (at_ / 60000000000 % 60).toNat }

/-- Its dates. -/
def utcCalendar : Calendar utcZones := ⟨fun _ at_ => at_ / 86400000000000 + 719163, fun _ _ => rfl⟩

/-- Libraries that know these clocks. -/
def Texts.inUtc : Texts Empty Unit :=
  { Texts.bare with zones := utcZones, intoMinute := fun _ at_ => (at_ % 60000000000).toNat }

/-- From ten in the evening to six in the morning, on some days: for a route. -/
def nightRoute (days : List String) : Smppd.TimeWindow := { start := "22:00", stop := "06:00", days := days }

/-- For a rule. -/
def nightRule (days : List Weekday) : TimeWindow Unit := ⟨22 * 3600000000000, 6 * 3600000000000, days, ()⟩

/-- Saturday, the third of January 1970, at one o'clock. -/
def saturdayAtOne : Clock := ⟨0, (2 * 24 + 1) * 3600000000000⟩

/-- With Friday and Saturday listed, or all days, the night is open at that time, as it should be. -/
theorem overnight_both_days :
    (timeWindowMatches utcZones saturdayAtOne.wall (nightRoute ["Fri", "Sat"]) = true ↔
        routerMoment utcCalendar (nightRoute ["Fri", "Sat"]) saturdayAtOne.wall ∈
          nights (fun day => ListsDay (nightRoute ["Fri", "Sat"]) (.ofDay day)) (minutes 22 0) (minutes 6 0)) ∧
      ((nightRule []).isActive Texts.inUtc saturdayAtOne = true ↔
        ruleMoment Texts.inUtc utcCalendar (nightRule []) saturdayAtOne.wall ∈
          nightsClosed (fun day => (nightRule []).ListsDay (.ofDay day)) (nightRule []).start (nightRule []).stop) := by
  have hparsed : parseTime (nightRoute ["Fri", "Sat"]).start = some (22, 0) ∧
      parseTime (nightRoute ["Fri", "Sat"]).stop = some (6, 0) := by decide
  have hnight : (nightRule []).stop < (nightRule []).start := by decide
  have hboth := overnight_iff Texts.inUtc utcCalendar hparsed.1 hparsed.2 (by decide) hnight saturdayAtOne
  refine ⟨hboth.1.mpr fun _ => ?_, hboth.2.mpr fun _ => ?_⟩
  · exact iff_of_true ⟨"Sat", by decide, by decide⟩ ⟨"Fri", by decide, by decide⟩
  · exact iff_of_true (Or.inl rfl) (Or.inl rfl)

/-- **Saturday at one is not in the night of Friday**, for either of the two. -/
theorem friday_night_closed :
    ¬ (timeWindowMatches utcZones saturdayAtOne.wall (nightRoute ["Fri"]) = true ↔
        routerMoment utcCalendar (nightRoute ["Fri"]) saturdayAtOne.wall ∈
          nights (fun day => ListsDay (nightRoute ["Fri"]) (.ofDay day)) (minutes 22 0) (minutes 6 0)) ∧
      ¬ ((nightRule [.fri]).isActive Texts.inUtc saturdayAtOne = true ↔
        ruleMoment Texts.inUtc utcCalendar (nightRule [.fri]) saturdayAtOne.wall ∈
          nightsClosed (fun day => (nightRule [.fri]).ListsDay (.ofDay day)) (nightRule [.fri]).start
            (nightRule [.fri]).stop) := by
  constructor
  · intro h
    have hopen := h.mpr (mem_nights_iff.mpr (Or.inr ⟨⟨"Fri", by decide, by decide⟩, by decide⟩))
    exact absurd hopen (by decide)
  · intro h
    have hopen := h.mpr (mem_nightsClosed_iff.mpr (Or.inr ⟨Or.inr (by decide), by decide⟩))
    exact absurd hopen (by decide)

end Smppd.Filter
