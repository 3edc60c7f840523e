/-
  RECURRENCE: the deliveries of a schedule that repeats, one after the other.

  `series self n` is the schedule as it stands at its delivery number `n`, counted from 0.  `next_from` adds the
  stride of the rule, interval times period, and moves what falls behind the end date BACK to the end date.  So
  the times are `t₀ + n * stride`, cut off at the end date (`series_scheduledAt`), and three things go wrong:

  * the interval is not checked, and with interval 0 the time stays where it is;
  * at the end date the next time is the end date again.  Nothing completes the schedule there: it is due at once,
    and is delivered for ever unless the number of deliveries is limited;
  * the sum is made before the end date is looked at, and chrono panics where it has no value for it: for a long
    interval at the first delivery, and without an end date after enough of them.

  `trySeries` is the series with the panics, and agrees with `series` up to the first (`trySeries_eq_some_iff`).
  `Progresses` is what a recurring schedule should do; `Advances` is when it does, read off the schedule and its
  rule (`recurrence_progresses_iff`).  `returned_in_series` connects the series to the scheduler: whatever the
  calls are, what `get_due` returns is a delivery of the series of something that was scheduled.
-/
import Smppd.Store.Delivery

set_option linter.unusedVariables false

namespace Smppd.Store

open Table Machine Transducer

/-! ## Times that are cut off -/

section CutOff

variable (t stop : Int) (d : Nat)

theorem if_lt_eq_min : (if stop < t then stop else t) = min t stop := by
  split <;> omega

theorem min_add_min : min (min t stop + d) stop = min (t + d) stop := by
  omega

theorem min_lt_min_add_iff : min t stop < min (t + d) stop ↔ 0 < d ∧ t < stop := by
  omega

theorem lt_add_nat_iff : t < t + d ↔ 0 < d := by
  omega

/-- Enough strides lead anywhere. -/
theorem le_strides {d : Nat} (hpos : 0 < d) : stop ≤ t + ((stop - t).toNat * d : Nat) := by
  have hfar : (stop - t).toNat ≤ (stop - t).toNat * d := Nat.le_mul_of_pos_right _ hpos
  generalize (stop - t).toNat * d = far at hfar ⊢
  omega

end CutOff

/-! ## The rule -/

theorem RecurrenceFrequency.period_pos (self : RecurrenceFrequency) : 0 < self.period := by
  cases self <;> decide

namespace RecurrenceRule

/-- No later than the end date. -/
def cutOff (self : RecurrenceRule) (t : SystemTime) : SystemTime :=
  match self.endDate with
  | some stop => if stop < t then stop else t
  | none => t

theorem nextFrom_eq (self : RecurrenceRule) (t : SystemTime) : self.nextFrom t = self.cutOff (t + self.stride) := rfl

/-- Only the interval 0 goes nowhere. -/
theorem stride_pos_iff (self : RecurrenceRule) : 0 < self.stride ↔ 0 < self.interval := by
  rw [stride, Nat.mul_pos_iff_of_pos_right self.frequency.period_pos]
  exact Iff.rfl

theorem cutOff_none {self : RecurrenceRule} (h : self.endDate = none) (t : SystemTime) : self.cutOff t = t := by
  rw [cutOff, h]

theorem cutOff_some {self : RecurrenceRule} {stop : SystemTime} (h : self.endDate = some stop) (t : SystemTime) :
    self.cutOff t = min t stop := by
  rw [cutOff, h]
  exact if_lt_eq_min t stop

theorem cutOff_le (self : RecurrenceRule) (t : SystemTime) : ∀ stop ∈ self.endDate, self.cutOff t ≤ stop := by
  intro stop hstop
  rw [cutOff_some hstop]
  exact Int.min_le_right t stop

theorem cutOff_of_le {self : RecurrenceRule} {t : SystemTime} (h : ∀ stop ∈ self.endDate, t ≤ stop) :
    self.cutOff t = t := by
  cases hend : self.endDate with
  | none => exact cutOff_none hend t
  | some stop =>
    rw [cutOff_some hend]
    exact Int.min_eq_left (h stop hend)

/-- What was cut off once is cut off for good. -/
theorem cutOff_add (self : RecurrenceRule) (t : SystemTime) (d : Nat) :
    self.cutOff (self.cutOff t + d) = self.cutOff (t + d) := by
  cases hend : self.endDate with
  | none => rw [cutOff_none hend t]
  | some stop =>
    rw [cutOff_some hend, cutOff_some hend, cutOff_some hend]
    exact min_add_min t stop d

/-- The next time is a later one exactly when the stride goes somewhere and the end date is not reached. -/
theorem cutOff_lt_iff (self : RecurrenceRule) (t : SystemTime) :
    self.cutOff t < self.cutOff (t + self.stride) ↔ 0 < self.interval ∧ ∀ stop ∈ self.endDate, t < stop := by
  rw [← stride_pos_iff]
  cases hend : self.endDate with
  | none =>
    rw [cutOff_none hend, cutOff_none hend, lt_add_nat_iff]
    exact iff_self_and.mpr fun _ stop hstop => absurd hstop (Option.not_mem_none stop)
  | some stop =>
    rw [cutOff_some hend, cutOff_some hend, min_lt_min_add_iff]
    refine and_congr_right fun _ => ⟨fun hbefore stop' hstop => ?_, fun hbefore => hbefore stop rfl⟩
    obtain rfl := Option.some.inj hstop
    exact hbefore

end RecurrenceRule

/-- The values of chrono 0.4: whole milliseconds in an `i64`, and the last day of the year 262142. -/
def Chrono.crate : Chrono := ⟨9223372036854775807000000, 8210266876799999999999⟩

/-- So many months are no `TimeDelta`. -/
example : (⟨.monthly, 4294967295, none⟩ : RecurrenceRule).tryNextFrom .crate 0 = none := by decide

/-! ## The series of deliveries -/

namespace ScheduledMessage

/-- The schedule at its delivery number `n`; `none` when it was completed before. -/
def series (self : ScheduledMessage) : (n : Nat) → Option ScheduledMessage
  | 0 => some self
  | n + 1 => (self.series n).bind fun msg =>
    let msg := msg.markDelivered
    if msg.status = .pending then some msg else none

/-- The same with the panics: `none` also when a mark before did not return. -/
def trySeries (chrono : Chrono) (self : ScheduledMessage) : (n : Nat) → Option ScheduledMessage
  | 0 => some self
  | n + 1 => (self.trySeries chrono n).bind fun msg =>
    (msg.tryMarkDelivered chrono).filter fun msg => msg.status = .pending

/-- There is a delivery after number `n`: the deliveries are not limited, or the limit is not reached. -/
def RepeatsPast (self : ScheduledMessage) (n : Nat) : Prop :=
  self.maxDeliveries = 0 ∨ (self.deliveryCount + 1).toNat + n < self.maxDeliveries.toNat

/-- What a recurring schedule should do. -/
structure Progresses (chrono : Chrono) (s : ScheduledMessage) (rule : RecurrenceRule) : Prop where
  /-- A delivery can be marked, and completes it or moves it forward. -/
  forward : ∀ n msg, s.trySeries chrono n = some msg → ∃ msg', msg.tryMarkDelivered chrono = some msg' ∧
    (msg'.status = .completed ∨ msg.scheduledAt < msg'.scheduledAt)
  /-- No delivery is scheduled after the end date. -/
  inTime : ∀ n msg, s.trySeries chrono n = some msg → ∀ stop ∈ rule.endDate, msg.scheduledAt ≤ stop
  /-- With an end date it is delivered only finitely many times. -/
  ends : rule.endDate ≠ none → ∃ n, s.trySeries chrono n = none

/-- It begins no later than the end date, and as long as it repeats the interval is not 0, the end date is still
    ahead, and the next time is one that chrono has. -/
structure Advances (chrono : Chrono) (s : ScheduledMessage) (rule : RecurrenceRule) : Prop where
  begins : ∀ stop ∈ rule.endDate, s.scheduledAt ≤ stop
  moves : ∀ n, s.RepeatsPast n →
    (0 < rule.interval ∧ ∀ stop ∈ rule.endDate, s.scheduledAt + (n * rule.stride : Nat) < stop) ∧
      rule.stride ≤ chrono.maxDelta ∧ s.scheduledAt + ((n + 1) * rule.stride : Nat) ≤ chrono.maxUtc

/-- What repeats after a delivery repeats after those before. -/
theorem RepeatsPast.of_succ {self : ScheduledMessage} {n : Nat} (h : self.RepeatsPast (n + 1)) :
    self.RepeatsPast n := by
  rcases h with hzero | hless
  · exact Or.inl hzero
  · exact Or.inr (by omega)

/-- One delivery of the series. -/
theorem series_succ_eq_some {self msg' : ScheduledMessage} {n : Nat} :
    self.series (n + 1) = some msg' ↔
      ∃ msg, self.series n = some msg ∧ msg.repeatsAfter = true ∧ msg.markDelivered = msg' := by
  rw [series, Option.bind_eq_some_iff]
  refine exists_congr fun msg => and_congr_right fun _ => ?_
  show (if msg.markDelivered.status = .pending then some msg.markDelivered else none) = some msg' ↔ _
  by_cases hrepeats : msg.repeatsAfter = true
  · rw [if_pos (msg.markDelivered_pending.mpr hrepeats), Option.some_inj, and_iff_right hrepeats]
  · rw [if_neg fun hpending => hrepeats (msg.markDelivered_pending.mp hpending)]
    exact iff_of_false nofun fun h => hrepeats h.1

/-- What does not repeat is completed. -/
theorem markDelivered_completed {self : ScheduledMessage} (h : ¬ self.repeatsAfter = true) :
    self.markDelivered.status = .completed := by
  rw [markDelivered_eq]
  exact if_neg h

section Series

variable {self : ScheduledMessage} {rule : RecurrenceRule}

/-- What repeats is moved to the next time of its rule. -/
theorem markDelivered_scheduledAt (hrule : self.recurrence = some rule) (h : self.repeatsAfter = true) :
    self.markDelivered.scheduledAt = rule.nextFrom self.scheduledAt := by
  rw [markDelivered_eq, if_pos h, nextScheduledTime, hrule]
  rfl

/-- **What the deliveries leave of a schedule**: its rule and its limit, and a count that has not wrapped while there
    is a limit. -/
theorem series_kept (hrule : self.recurrence = some rule) {n : Nat} {msg : ScheduledMessage}
    (h : self.series n = some msg) :
    msg.recurrence = some rule ∧ msg.maxDeliveries = self.maxDeliveries ∧
      (self.maxDeliveries = 0 ∨ (msg.deliveryCount + 1).toNat = (self.deliveryCount + 1).toNat + n) := by
  induction n generalizing msg with
  | zero =>
    obtain rfl := Option.some.inj h
    exact ⟨hrule, rfl, Or.inr rfl⟩
  | succ n ih =>
    obtain ⟨before, hbefore, hrepeats, rfl⟩ := series_succ_eq_some.mp h
    obtain ⟨hkept, hmax, hcount⟩ := ih hbefore
    have hfields : before.markDelivered.recurrence = before.recurrence ∧
        before.markDelivered.maxDeliveries = before.maxDeliveries ∧
        before.markDelivered.deliveryCount = before.deliveryCount + 1 := by
      rw [before.markDelivered_eq]
      exact ⟨rfl, rfl, rfl⟩
    rw [hfields.1, hfields.2.1, hfields.2.2]
    refine ⟨hkept, hmax, ?_⟩
    by_cases hzero : self.maxDeliveries = 0
    · exact Or.inl hzero
    · right
      have hless : (before.deliveryCount + 1).toNat < before.maxDeliveries.toNat := by
        rcases (before.repeatsAfter_iff.mp hrepeats).2 with hnone | hless
        · exact absurd (hmax.symm.trans hnone) hzero
        · exact hless
      have := before.maxDeliveries.toNat_lt
      have := hcount.resolve_left hzero
      rw [UInt32.toNat_add]
      show ((before.deliveryCount + 1).toNat + 1) % 4294967296 = _
      omega

/-- Whether delivery number `n` is the last can be said beforehand. -/
theorem repeatsAfter_series_iff (hrule : self.recurrence = some rule) {n : Nat} {msg : ScheduledMessage}
    (h : self.series n = some msg) : msg.repeatsAfter = true ↔ self.RepeatsPast n := by
  obtain ⟨hkept, hmax, hcount⟩ := series_kept hrule h
  have hsome : msg.recurrence ≠ none := by
    rw [hkept]
    exact Option.some_ne_none rule
  rw [msg.repeatsAfter_iff, and_iff_right hsome, hmax, RepeatsPast]
  refine or_congr_right' fun hzero => ?_
  rw [← hcount.resolve_left hzero]
  exact Iff.rfl

/-- Where the schedule repeats past a delivery, that delivery takes place. -/
theorem exists_series (hrule : self.recurrence = some rule) {n : Nat} (h : self.RepeatsPast n) :
    ∃ msg, self.series n = some msg := by
  induction n with
  | zero => exact ⟨self, rfl⟩
  | succ n ih =>
    obtain ⟨msg, hmsg⟩ := ih h.of_succ
    exact ⟨_, series_succ_eq_some.mpr ⟨msg, hmsg, (repeatsAfter_series_iff hrule hmsg).mpr h.of_succ, rfl⟩⟩

/-- **The times of the deliveries**, cut off at the end date. -/
theorem series_scheduledAt (hrule : self.recurrence = some rule)
    (hbegins : ∀ stop ∈ rule.endDate, self.scheduledAt ≤ stop) {n : Nat} {msg : ScheduledMessage}
    (h : self.series n = some msg) :
    msg.scheduledAt = rule.cutOff (self.scheduledAt + (n * rule.stride : Nat)) := by
  induction n generalizing msg with
  | zero =>
    obtain rfl := Option.some.inj h
    rw [Nat.zero_mul, Int.natCast_zero, Int.add_zero, RecurrenceRule.cutOff_of_le hbegins]
  | succ n ih =>
    obtain ⟨before, hbefore, hrepeats, rfl⟩ := series_succ_eq_some.mp h
    rw [markDelivered_scheduledAt (series_kept hrule hbefore).1 hrepeats, rule.nextFrom_eq, ih hbefore, rule.cutOff_add,
      Int.add_assoc, ← Int.natCast_add, Nat.succ_mul]

/-- A delivery moves the schedule forward exactly when the interval is not 0 and the end date is ahead. -/
theorem forward_iff (hrule : self.recurrence = some rule)
    (hbegins : ∀ stop ∈ rule.endDate, self.scheduledAt ≤ stop) {n : Nat} {msg : ScheduledMessage}
    (h : self.series n = some msg) (hrepeats : msg.repeatsAfter = true) :
    msg.scheduledAt < msg.markDelivered.scheduledAt ↔
      0 < rule.interval ∧ ∀ stop ∈ rule.endDate, self.scheduledAt + (n * rule.stride : Nat) < stop := by
  rw [markDelivered_scheduledAt (series_kept hrule h).1 hrepeats, rule.nextFrom_eq, series_scheduledAt hrule hbegins h,
    rule.cutOff_add, rule.cutOff_lt_iff]

/-! ### The series with its panics -/

variable {chrono : Chrono}

theorem trySeries_succ_eq_some {msg' : ScheduledMessage} {n : Nat} :
    self.trySeries chrono (n + 1) = some msg' ↔
      ∃ msg, self.trySeries chrono n = some msg ∧ msg.tryMarkDelivered chrono = some msg' ∧
        msg'.status = .pending := by
  rw [trySeries, Option.bind_eq_some_iff]
  simp only [Option.filter_eq_some_iff, decide_eq_true_eq]

/-- **Up to the first panic** the deliveries are those of the series. -/
theorem trySeries_eq_some_iff (hrule : self.recurrence = some rule) {n : Nat} {msg : ScheduledMessage} :
    self.trySeries chrono n = some msg ↔
      self.series n = some msg ∧ ∀ k < n, ∀ m, self.series k = some m →
        rule.stride ≤ chrono.maxDelta ∧ m.scheduledAt + rule.stride ≤ chrono.maxUtc := by
  induction n generalizing msg with
  | zero => exact (and_iff_left fun k hk => absurd hk (Nat.not_lt_zero k)).symm
  | succ n ih =>
    rw [trySeries_succ_eq_some, series_succ_eq_some]
    constructor
    · rintro ⟨before, hbefore, hmark, hpending⟩
      obtain ⟨hseries, hearlier⟩ := ih.mp hbefore
      obtain ⟨rfl, hfits⟩ := tryMarkDelivered_eq_some_iff.mp hmark
      have hrepeats := before.markDelivered_pending.mp hpending
      refine ⟨⟨before, hseries, hrepeats, rfl⟩, fun k hk m hm => ?_⟩
      rcases Nat.lt_succ_iff_lt_or_eq.mp hk with hlt | rfl
      · exact hearlier k hlt m hm
      · obtain rfl := Option.some.inj (hseries.symm.trans hm)
        exact hfits hrepeats rule (series_kept hrule hm).1
    · rintro ⟨⟨before, hseries, hrepeats, rfl⟩, hfits⟩
      refine ⟨before, ih.mpr ⟨hseries, fun k hk => hfits k (Nat.lt_succ_of_lt hk)⟩, ?_,
        before.markDelivered_pending.mpr hrepeats⟩
      refine tryMarkDelivered_eq_some_iff.mpr ⟨rfl, fun _ rule' hrule' => ?_⟩
      obtain rfl := Option.some.inj ((series_kept hrule hseries).1.symm.trans hrule')
      exact hfits n (Nat.lt_succ_self n) before hseries

/-- Where a recurring schedule does what it should, a delivery after which it repeats takes place. -/
theorem Progresses.exists_trySeries (hprogresses : self.Progresses chrono rule) (hrule : self.recurrence = some rule)
    {n : Nat} (h : self.RepeatsPast n) : ∃ msg, self.trySeries chrono n = some msg ∧ msg.repeatsAfter = true := by
  have hrepeats {n : Nat} (h : self.RepeatsPast n) {msg : ScheduledMessage}
      (hmsg : self.trySeries chrono n = some msg) : msg.repeatsAfter = true :=
    (repeatsAfter_series_iff hrule ((trySeries_eq_some_iff hrule).mp hmsg).1).mpr h
  induction n with
  | zero => exact ⟨self, rfl, hrepeats h rfl⟩
  | succ n ih =>
    obtain ⟨msg, hmsg, hagain⟩ := ih h.of_succ
    obtain ⟨msg', hmark, -⟩ := hprogresses.forward n msg hmsg
    have hnext : self.trySeries chrono (n + 1) = some msg' := by
      refine trySeries_succ_eq_some.mpr ⟨msg, hmsg, hmark, ?_⟩
      rw [← (tryMarkDelivered_eq_some_iff.mp hmark).1]
      exact msg.markDelivered_pending.mpr hagain
    exact ⟨msg', hnext, hrepeats h hnext⟩

/-- A schedule that advances to an end date gets there. -/
theorem Advances.ends (hadvances : self.Advances chrono rule) (hrule : self.recurrence = some rule)
    (hend : rule.endDate ≠ none) : ∃ n, self.trySeries chrono n = none := by
  obtain ⟨stop, hstop⟩ := Option.ne_none_iff_exists'.mp hend
  by_contra hnever
  have hpast : ∀ n, self.RepeatsPast n := by
    intro n
    obtain ⟨msg', hmsg'⟩ := Option.ne_none_iff_exists'.mp fun hnone => hnever ⟨n + 1, hnone⟩
    obtain ⟨msg, hmsg, hrepeats, -⟩ := series_succ_eq_some.mp ((trySeries_eq_some_iff hrule).mp hmsg').1
    exact (repeatsAfter_series_iff hrule hmsg).mp hrepeats
  -- so many strides lead past the end date
  obtain ⟨⟨hinterval, hbefore⟩, -⟩ := hadvances.moves (stop - self.scheduledAt).toNat (hpast _)
  have hstride := rule.stride_pos_iff.mpr hinterval
  exact absurd (hbefore stop hstop) (Int.not_lt.mpr (le_strides self.scheduledAt stop hstride))

/-- **Recurrence makes progress** exactly when the schedule begins no later than the end date and, as long as it
    repeats, the interval is not 0, the end date is still ahead, and the next time is one that chrono has. -/
theorem recurrence_progresses_iff (chrono : Chrono) (hrule : self.recurrence = some rule) :
    self.Progresses chrono rule ↔ self.Advances chrono rule := by
  constructor
  · intro hprogresses
    have hbegins := hprogresses.inTime 0 self rfl
    refine ⟨hbegins, fun n hpast => ?_⟩
    obtain ⟨msg, hmsg, hrepeats⟩ := hprogresses.exists_trySeries hrule hpast
    have hseries := ((trySeries_eq_some_iff hrule).mp hmsg).1
    obtain ⟨msg', hmark, hmoves⟩ := hprogresses.forward n msg hmsg
    obtain ⟨rfl, hfits⟩ := tryMarkDelivered_eq_some_iff.mp hmark
    have hforward : msg.scheduledAt < msg.markDelivered.scheduledAt := by
      refine hmoves.resolve_left fun hcompleted => ?_
      rw [msg.markDelivered_pending.mpr hrepeats] at hcompleted
      cases hcompleted
    have hahead := (forward_iff hrule hbegins hseries hrepeats).mp hforward
    -- it is not cut off yet
    have htime : msg.scheduledAt = self.scheduledAt + (n * rule.stride : Nat) := by
      rw [series_scheduledAt hrule hbegins hseries]
      exact RecurrenceRule.cutOff_of_le fun stop hstop => (hahead.2 stop hstop).le
    obtain ⟨hdelta, hutc⟩ := hfits hrepeats rule (series_kept hrule hseries).1
    refine ⟨hahead, hdelta, ?_⟩
    rw [htime, Int.add_assoc, ← Int.natCast_add, ← Nat.succ_mul] at hutc
    exact hutc
  · intro hadvances
    have hseries {n : Nat} {msg : ScheduledMessage} (hmsg : self.trySeries chrono n = some msg) :
        self.series n = some msg := ((trySeries_eq_some_iff hrule).mp hmsg).1
    refine ⟨fun n msg hmsg => ⟨msg.markDelivered, ?_, ?_⟩, fun n msg hmsg => ?_, hadvances.ends hrule⟩
    · refine tryMarkDelivered_eq_some_iff.mpr ⟨rfl, fun hrepeats rule' hrule' => ?_⟩
      obtain rfl := Option.some.inj ((series_kept hrule (hseries hmsg)).1.symm.trans hrule')
      obtain ⟨hahead, hdelta, hutc⟩ :=
        hadvances.moves n ((repeatsAfter_series_iff hrule (hseries hmsg)).mp hrepeats)
      have htime : msg.scheduledAt = self.scheduledAt + (n * rule.stride : Nat) := by
        rw [series_scheduledAt hrule hadvances.begins (hseries hmsg)]
        exact RecurrenceRule.cutOff_of_le fun stop hstop => (hahead.2 stop hstop).le
      rw [htime, Int.add_assoc, ← Int.natCast_add, ← Nat.succ_mul]
      exact ⟨hdelta, hutc⟩
    · by_cases hrepeats : msg.repeatsAfter = true
      · have hpast := (repeatsAfter_series_iff hrule (hseries hmsg)).mp hrepeats
        exact Or.inr ((forward_iff hrule hadvances.begins (hseries hmsg) hrepeats).mpr (hadvances.moves n hpast).1)
      · exact Or.inl (markDelivered_completed hrepeats)
    · rw [series_scheduledAt hrule hadvances.begins (hseries hmsg)]
      exact rule.cutOff_le _

/-- **Delivered for ever**: without a limit there is no last delivery, end date or not, and an end date keeps the
    times away from chrono's bounds. -/
theorem delivered_for_ever (hrule : self.recurrence = some rule) (hunlimited : self.maxDeliveries = 0)
    {stop : SystemTime} (hend : rule.endDate = some stop) (hbegins : self.scheduledAt ≤ stop)
    (hdelta : rule.stride ≤ chrono.maxDelta) (hutc : stop + rule.stride ≤ chrono.maxUtc) (n : Nat) :
    ∃ msg, self.trySeries chrono n = some msg ∧
      msg.scheduledAt = min (self.scheduledAt + (n * rule.stride : Nat)) stop := by
  have hbegins' : ∀ stop ∈ rule.endDate, self.scheduledAt ≤ stop := by
    intro stop' hstop
    obtain rfl := Option.some.inj (hend.symm.trans hstop)
    exact hbegins
  obtain ⟨msg, hmsg⟩ := exists_series hrule (Or.inl hunlimited : self.RepeatsPast n)
  refine ⟨msg, (trySeries_eq_some_iff hrule).mpr ⟨hmsg, fun k _ m hm => ⟨hdelta, ?_⟩⟩, ?_⟩
  · have hle : m.scheduledAt ≤ stop := by
      rw [series_scheduledAt hrule hbegins' hm]
      exact rule.cutOff_le _ stop hend
    exact (Int.add_le_add_right hle _).trans hutc
  · rw [series_scheduledAt hrule hbegins' hmsg, RecurrenceRule.cutOff_some hend]

end Series

end ScheduledMessage

/-! ## The series and the scheduler -/

/-- The schedule stands at a delivery of the series: it is waiting for it, or it is out. -/
def ScheduledMessage.StandsAt (self : ScheduledMessage) (n : Nat) (msg : ScheduledMessage) : Prop :=
  ∃ m, self.series n = some m ∧ (msg = m ∨ msg = m.delivering)

/-- A mark takes it to the next delivery. -/
theorem ScheduledMessage.StandsAt.markDelivered {self msg : ScheduledMessage} {n : Nat} (h : self.StandsAt n msg)
    (hrepeats : msg.repeatsAfter = true) : self.StandsAt (n + 1) msg.markDelivered := by
  obtain ⟨m, hm, rfl | rfl⟩ := h
  · exact ⟨_, series_succ_eq_some.mpr ⟨_, hm, hrepeats, rfl⟩, Or.inl rfl⟩
  · -- whether it was out makes no difference to where it goes
    have hsame : m.delivering.markDelivered = m.markDelivered := by
      rw [markDelivered_eq, markDelivered_eq]
      rfl
    have hrepeats' : m.repeatsAfter = true := hrepeats
    rw [hsame]
    exact ⟨_, series_succ_eq_some.mpr ⟨m, hm, hrepeats', rfl⟩, Or.inl rfl⟩

namespace Life

/-- **A life runs along the series.** -/
theorem run_series {self msg msg' : ScheduledMessage} {n : Nat} {w : List SchedulerEvent} (hstands : self.StandsAt n msg)
    (h : run step (.live msg) w = some (.live msg')) : ∃ k, self.StandsAt k msg' := by
  induction w generalizing msg n with
  | nil =>
    obtain rfl := Life.live.inj (Option.some.inj h)
    exact ⟨n, hstands⟩
  | cons e w ih =>
    obtain ⟨l, hstep, hrun⟩ := run_cons_eq_some.mp h
    cases e with
    | scheduled m => cases hstep
    | cancelled id =>
      obtain rfl := Option.some.inj hstep
      cases (run_ended hrun).1
    | returned m =>
      rw [step] at hstep
      split at hstep
      · obtain rfl := Option.some.inj hstep
        obtain ⟨m', hm', hout⟩ := hstands
        refine ih ⟨m', hm', Or.inr ?_⟩ hrun
        rcases hout with rfl | rfl
        · rfl
        · rfl
      · cases hstep
    | marked id =>
      obtain rfl := Option.some.inj hstep
      rw [mark] at hrun
      split at hrun
      · split at hrun
        · rename_i hrepeats
          exact ih (hstands.markDelivered hrepeats) hrun
        · cases (run_ended hrun).1
      · exact ih hstands hrun

/-- What is alive was scheduled, and stands at a delivery of its series. -/
theorem scheduled_of_live {msg : ScheduledMessage} {w : List SchedulerEvent}
    (h : run step .unborn w = some (.live msg)) : ∃ self, .scheduled self ∈ w ∧ ∃ n, self.StandsAt n msg := by
  induction w with
  | nil => cases h
  | cons e w ih =>
    obtain ⟨l, hstep, hrun⟩ := run_cons_eq_some.mp h
    cases e with
    | scheduled self =>
      obtain rfl := Option.some.inj hstep
      have hfirst : self.StandsAt 0 self := ⟨self, rfl, Or.inl rfl⟩
      exact ⟨self, List.mem_cons_self, run_series hfirst hrun⟩
    | returned m => cases hstep
    | cancelled id => cases hstep
    | marked id =>
      obtain rfl := Option.some.inj hstep
      obtain ⟨self, hmem, hstands⟩ := ih hrun
      exact ⟨self, List.mem_cons_of_mem _ hmem, hstands⟩

end Life

namespace Scheduler

/-- **What is returned is a delivery of the series** of something that was scheduled, whatever the calls are, as long
    as no id is scheduled twice. -/
theorem returned_in_series {config : SchedulerConfig} {calls : List SchedulerCall} {call : SchedulerCall}
    (honce : Once (record config calls)) {msg : ScheduledMessage}
    (h : .returned msg ∈ ((reached config calls).step call).1) :
    ∃ self, .scheduled self ∈ record config calls ∧
      ∃ n m, self.series n = some m ∧ msg.scheduledAt = m.scheduledAt := by
  obtain ⟨order, now, limit, rfl, entry, hmem, hpending, -, rfl⟩ := due_of_returned h
  obtain ⟨l, hword, hqueue⟩ := follows_run honce entry.id
  have hentry : entry ∈ l.entries := by
    rw [← hqueue]
    exact List.mem_filter.mpr ⟨hmem, decide_eq_true rfl⟩
  cases l with
  | unborn => cases hentry
  | ended => cases hentry
  | live live =>
    obtain rfl := List.mem_singleton.mp hentry
    obtain ⟨self, hscheduled, n, m, hm, hstands⟩ := Life.scheduled_of_live hword
    refine ⟨self, (mem_about.mp hscheduled).1, n, m, hm, ?_⟩
    rcases hstands with rfl | rfl
    · rfl
    · rfl

end Scheduler

/-! ## One that ends, and one that does not -/

namespace ScheduledMessage

/-- Twice, daily, within three days. -/
theorem recurrence_progresses_twice :
    let rule : RecurrenceRule := ⟨.daily, 1, some (fromSecs (3 * 86400))⟩
    ({ Scheduler.twice with recurrence := some rule } : ScheduledMessage).Progresses .crate rule := by
  refine (recurrence_progresses_iff .crate rfl).mpr ⟨?_, fun n hpast => ?_⟩
  · intro stop hstop
    obtain rfl := Option.some.inj hstop
    decide
  · -- only the first delivery has one after it
    obtain rfl : n = 0 := by
      rcases hpast with hzero | hless
      · exact absurd hzero (by decide)
      · have hless : 1 + n < 2 := hless
        omega
    refine ⟨⟨by decide, fun stop hstop => ?_⟩, by decide, by decide⟩
    obtain rfl := Option.some.inj hstop
    decide

/-- Daily until tomorrow, without a limit. -/
def untilTomorrow : ScheduledMessage :=
  { Scheduler.twice with recurrence := some ⟨.daily, 1, some (fromSecs 86400)⟩, maxDeliveries := 0 }

/-- **Stuck at the end date**: tomorrow's delivery is followed by another one, at the same time. -/
theorem stuck_at_end_date : ¬ untilTomorrow.Progresses .crate ⟨.daily, 1, some (fromSecs 86400)⟩ := by
  intro h
  obtain ⟨msg', hmark, hmoves⟩ := h.forward 1 untilTomorrow.markDelivered rfl
  obtain rfl := (tryMarkDelivered_eq_some_iff.mp hmark).1
  rcases hmoves with hcompleted | hforward
  · exact absurd hcompleted (by decide)
  · exact absurd hforward (by decide)

end ScheduledMessage

end Smppd.Store
