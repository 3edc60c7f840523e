/-
  The SCHEDULER (`src/store/scheduler.rs`): messages that wait for their time, once or again and again.

  The queue is a heap, of which the code uses that it can be emptied and filled: `get_due`, `cancel` and
  `mark_delivered` drain it, look at every schedule and push back what stays.  It is modelled by the list of
  its schedules, and the order in which a drain meets them is the `order` of the call.  The ids of an ESME's
  schedules are kept a second time, in `by_esme`.

  A call reads the clock once.  `delivery_count` is a `u32` and wraps.  Instants have no bounds in what the calls
  do; chrono's do, and `next_from` panics where a time has none (`tryNextFrom`, `tryMarkDelivered`).  The days and
  the time of day of a recurrence rule are read by nothing and are left out, and so is the moment at which a
  schedule was made.
-/
import Smppd.Lib.Table
import Smppd.Store.Types

set_option linter.unusedVariables false

namespace Smppd.Store

open Table

/-! ## Schedules -/

/-- Schedule status. -/
inductive ScheduleStatus where
  /-- Waiting for delivery time. -/
  | pending
  /-- Currently being delivered. -/
  | delivering
  | completed
  /-- Cancelled by user. -/
  | cancelled
  | failed
  /-- Can be resumed. -/
  | paused
  deriving DecidableEq

/-- Recurrence frequency. -/
inductive RecurrenceFrequency where
  | minutely
  | hourly
  | daily
  | weekly
  | monthly
  deriving DecidableEq

/-- The length of one period; a month is approximated by 30 days. -/
def RecurrenceFrequency.period : RecurrenceFrequency → Duration
  | .minutely => fromSecs 60
  | .hourly => fromSecs 3600
  | .daily => fromSecs 86400
  | .weekly => fromSecs (7 * 86400)
  | .monthly => fromSecs (30 * 86400)

/-- Recurrence rule. -/
structure RecurrenceRule where
  frequency : RecurrenceFrequency
  /-- Every N periods. -/
  interval : UInt32
  /-- None = never ends. -/
  endDate : Option SystemTime := none
  deriving DecidableEq

/-- `next_from`: an occurrence past the end date is moved to the end date. -/
def RecurrenceRule.nextFrom (self : RecurrenceRule) (start : SystemTime) : SystemTime :=
  let next := start + (self.interval.toNat * self.frequency.period : Nat)
  match self.endDate with
  | some stop => if stop < next then stop else next
  | none => next

/-- What chrono has values for. -/
structure Chrono where
  /-- `TimeDelta::MAX`. -/
  maxDelta : Duration
  /-- `DateTime::<Utc>::MAX_UTC`. -/
  maxUtc : SystemTime

/-- From one occurrence to the next. -/
def RecurrenceRule.stride (self : RecurrenceRule) : Nat := self.interval.toNat * self.frequency.period

/-- `next_from` with its panics, `none`: of `minutes` and the like when the stride is no `TimeDelta`, and of the sum
    when it is no `DateTime`.  The end date is looked at afterwards. -/
def RecurrenceRule.tryNextFrom (chrono : Chrono) (self : RecurrenceRule) (start : SystemTime) : Option SystemTime :=
  if self.stride ≤ chrono.maxDelta then
    if start + self.stride ≤ chrono.maxUtc then some (self.nextFrom start) else none
  else none

theorem RecurrenceRule.tryNextFrom_eq_some_iff {chrono : Chrono} {self : RecurrenceRule} {start next : SystemTime} :
    self.tryNextFrom chrono start = some next ↔
      self.nextFrom start = next ∧ self.stride ≤ chrono.maxDelta ∧ start + self.stride ≤ chrono.maxUtc := by
  rw [tryNextFrom]
  by_cases hdelta : self.stride ≤ chrono.maxDelta
  · by_cases hutc : start + self.stride ≤ chrono.maxUtc
    · rw [if_pos hdelta, if_pos hutc, Option.some_inj, and_iff_left ⟨hdelta, hutc⟩]
    · rw [if_pos hdelta, if_neg hutc]
      exact iff_of_false nofun fun h => hutc h.2.2
  · rw [if_neg hdelta]
    exact iff_of_false nofun fun h => hdelta h.2.1

/-- Scheduled message. -/
structure ScheduledMessage where
  /-- Unique schedule ID. -/
  id : String
  /-- The message to deliver. -/
  message : StoredMessage
  /-- Scheduled delivery time. -/
  scheduledAt : SystemTime
  recurrence : Option RecurrenceRule := none
  /-- Number of times delivered (for recurring). -/
  deliveryCount : UInt32 := 0
  /-- Maximum deliveries for recurring (0 = unlimited). -/
  maxDeliveries : UInt32 := 0
  status : ScheduleStatus := .pending
  esmeId : String

namespace ScheduledMessage

/-- `can_repeat`. -/
def canRepeat (self : ScheduledMessage) : Bool :=
  self.recurrence.isSome && (self.maxDeliveries = 0 || self.deliveryCount < self.maxDeliveries)

/-- `next_scheduled_time`. -/
def nextScheduledTime (self : ScheduledMessage) : Option SystemTime :=
  self.recurrence.map fun r => r.nextFrom self.scheduledAt

/-- Mark as delivered and update for recurrence. -/
def markDelivered (self : ScheduledMessage) : ScheduledMessage :=
  let self := { self with deliveryCount := self.deliveryCount + 1 }
  if self.canRepeat then
    match self.nextScheduledTime with
    | some next => { self with scheduledAt := next, status := .pending }
    | none => { self with status := .completed }
  else { self with status := .completed }

/-- `mark_delivered` with the panic of `next_from`, `none`. -/
def tryMarkDelivered (chrono : Chrono) (self : ScheduledMessage) : Option ScheduledMessage :=
  let self := { self with deliveryCount := self.deliveryCount + 1 }
  if self.canRepeat then
    match self.recurrence with
    | some r =>
      (r.tryNextFrom chrono self.scheduledAt).map fun next => { self with scheduledAt := next, status := .pending }
    | none => some { self with status := .completed }
  else some { self with status := .completed }

/-- There is another delivery after the next one. -/
def repeatsAfter (self : ScheduledMessage) : Bool :=
  ({ self with deliveryCount := self.deliveryCount + 1 } : ScheduledMessage).canRepeat

/-- What repeats has a rule. -/
theorem exists_rule (self : ScheduledMessage) (h : self.repeatsAfter = true) : ∃ rule, self.recurrence = some rule :=
  Option.isSome_iff_exists.mp (Bool.and_eq_true_iff.mp h).1

/-- What a delivery changes, and to what. -/
theorem markDelivered_eq (self : ScheduledMessage) :
    self.markDelivered = { self with
      deliveryCount := self.deliveryCount + 1
      scheduledAt := if self.repeatsAfter then self.nextScheduledTime.getD self.scheduledAt else self.scheduledAt
      status := if self.repeatsAfter then .pending else .completed } := by
  show (if self.repeatsAfter then
    match self.nextScheduledTime with
    | some next => _
    | none => _
    else _) = _
  cases hrepeats : self.repeatsAfter with
  | false => rfl
  | true =>
    -- a rule has a next time
    obtain ⟨rule, hrule⟩ := self.exists_rule hrepeats
    have hnext : self.nextScheduledTime = some (rule.nextFrom self.scheduledAt) := by
      rw [nextScheduledTime, hrule]
      rfl
    rw [hnext]
    rfl

/-- It returns unless the next time is asked for and chrono has no value for it. -/
theorem tryMarkDelivered_eq_some_iff {chrono : Chrono} {self msg : ScheduledMessage} :
    self.tryMarkDelivered chrono = some msg ↔
      self.markDelivered = msg ∧ (self.repeatsAfter = true → ∀ rule ∈ self.recurrence,
        rule.stride ≤ chrono.maxDelta ∧ self.scheduledAt + rule.stride ≤ chrono.maxUtc) := by
  rw [markDelivered_eq]
  cases hrepeats : self.repeatsAfter with
  | false =>
    have hlast : self.tryMarkDelivered chrono =
        some { self with deliveryCount := self.deliveryCount + 1, status := .completed } := by
      rw [tryMarkDelivered]
      exact if_neg (ne_true_of_eq_false hrepeats)
    rw [hlast, Option.some_inj, and_iff_left nofun]
    exact Iff.rfl
  | true =>
    obtain ⟨rule, hrule⟩ := self.exists_rule hrepeats
    have hmark : self.tryMarkDelivered chrono = (rule.tryNextFrom chrono self.scheduledAt).map fun next =>
        { self with deliveryCount := self.deliveryCount + 1, scheduledAt := next, status := .pending } := by
      rw [tryMarkDelivered]
      refine (if_pos hrepeats).trans ?_
      rw [hrule]
    have hnext : self.nextScheduledTime = some (rule.nextFrom self.scheduledAt) := by
      rw [nextScheduledTime, hrule]
      rfl
    rw [hmark, Option.map_eq_some_iff, hnext, hrule]
    simp only [RecurrenceRule.tryNextFrom_eq_some_iff]
    constructor
    · rintro ⟨next, ⟨rfl, hfits⟩, rfl⟩
      refine ⟨rfl, fun _ rule' hrule' => ?_⟩
      obtain rfl := Option.some.inj hrule'
      exact hfits
    · rintro ⟨rfl, hfits⟩
      exact ⟨_, ⟨rfl, hfits trivial rule rfl⟩, rfl⟩

@[simp] theorem markDelivered_id (self : ScheduledMessage) : self.markDelivered.id = self.id := by
  rw [markDelivered_eq]

@[simp] theorem markDelivered_esmeId (self : ScheduledMessage) : self.markDelivered.esmeId = self.esmeId := by
  rw [markDelivered_eq]

/-- A delivery is followed by another exactly when the schedule repeats and has deliveries left. -/
theorem markDelivered_pending (self : ScheduledMessage) :
    self.markDelivered.status = .pending ↔ self.repeatsAfter = true := by
  rw [markDelivered_eq]
  cases self.repeatsAfter with
  | false => exact iff_of_false nofun nofun
  | true => exact iff_of_true rfl rfl

theorem repeatsAfter_iff (self : ScheduledMessage) :
    self.repeatsAfter = true ↔
      self.recurrence ≠ none ∧ (self.maxDeliveries = 0 ∨ self.deliveryCount + 1 < self.maxDeliveries) := by
  rw [repeatsAfter, canRepeat]
  simp [Option.isSome_iff_ne_none]

/-- `status = Delivering`. -/
def delivering (self : ScheduledMessage) : ScheduledMessage := { self with status := .delivering }

end ScheduledMessage

/-! ## The scheduler -/

/-- Scheduler configuration: what the calls read of it. -/
structure SchedulerConfig where
  /-- Max scheduled messages per ESME. -/
  maxPerEsme : Nat := 10000
  /-- Max total scheduled messages. -/
  maxTotal : Nat := 1000000

/-- Scheduler error: those that the calls return. -/
inductive SchedulerError where
  | notFound
  | totalLimitExceeded
  | esmeLimitExceeded
  deriving DecidableEq

/-- Scheduler statistics: those that the calls count. -/
structure SchedulerStats where
  totalScheduled : UInt64 := 0
  totalDelivered : UInt64 := 0
  totalCancelled : UInt64 := 0

/-- Message scheduler. -/
structure Scheduler where
  queue : List ScheduledMessage
  /-- Index by ESME system_id. -/
  byEsme : Tbl String (List String)
  config : SchedulerConfig
  stats : SchedulerStats

namespace Scheduler

/-- Create new scheduler. -/
def new (config : SchedulerConfig) : Scheduler := ⟨[], ∅, config, {}⟩

/-- The ids that the index has for an ESME. -/
def indexed (self : Scheduler) (esmeId : String) : List String := (self.byEsme.lookup esmeId).getD []

/-- Schedule a message. -/
def schedule (scheduled : ScheduledMessage) (self : Scheduler) : Except SchedulerError String × Scheduler :=
  if self.config.maxTotal ≤ self.queue.length then (.error .totalLimitExceeded, self)
  else if (self.byEsme.lookup scheduled.esmeId).any fun ids => self.config.maxPerEsme ≤ ids.length then
    (.error .esmeLimitExceeded, self)
  else
    (.ok scheduled.id, { self with
      queue := self.queue ++ [scheduled]
      byEsme := self.byEsme.insert scheduled.esmeId (self.indexed scheduled.esmeId ++ [scheduled.id])
      stats := { self.stats with totalScheduled := self.stats.totalScheduled + 1 } })

/-- Cancel a scheduled message: what is found is not pushed back. -/
def cancel (order : IterOrder ScheduledMessage) (scheduleId : String) (self : Scheduler) :
    Except SchedulerError Unit × Scheduler :=
  let messages := order.arrange self.queue
  let queue := messages.filter fun msg => msg.id ≠ scheduleId
  if messages.any fun msg => msg.id = scheduleId then
    (.ok (), { self with
      queue := queue
      stats := { self.stats with totalCancelled := self.stats.totalCancelled + 1 } })
  else (.error .notFound, { self with queue := queue })

/-- The loop of `get_due`, which has found `found` schedules: those it finds, and what it pushes back. -/
def dueLoop (now : SystemTime) (limit : Nat) :
    (found : Nat) → List ScheduledMessage → List ScheduledMessage × List ScheduledMessage
  | _, [] => ([], [])
  | found, msg :: messages =>
    if found < limit ∧ msg.scheduledAt ≤ now ∧ msg.status = .pending then
      let msg := msg.delivering
      let (due, queue) := dueLoop now limit (found + 1) messages
      (msg :: due, msg :: queue)
    else
      let (due, queue) := dueLoop now limit found messages
      (due, msg :: queue)

/-- Get due messages (marks them as Delivering). -/
def getDue (order : IterOrder ScheduledMessage) (now : SystemTime) (limit : Nat) (self : Scheduler) :
    List ScheduledMessage × Scheduler :=
  let (due, queue) := dueLoop now limit 0 (order.arrange self.queue)
  (due, { self with queue := queue })

/-- One turn of the loop of `mark_delivered`. -/
def markOne (scheduleId : String) (self : Scheduler) (msg : ScheduledMessage) : Scheduler :=
  if msg.id = scheduleId ∧ msg.status = .delivering then
    let msg := msg.markDelivered
    if msg.status = .pending then { self with queue := self.queue ++ [msg] }
    else
      { self with
        byEsme := modify msg.esmeId (fun ids => ids.filter fun id => id ≠ scheduleId) self.byEsme
        stats := { self.stats with totalDelivered := self.stats.totalDelivered + 1 } }
  else { self with queue := self.queue ++ [msg] }

/-- Mark message as delivered and handle recurrence. -/
def markDelivered (order : IterOrder ScheduledMessage) (scheduleId : String) (self : Scheduler) : Scheduler :=
  (order.arrange self.queue).foldl (markOne scheduleId) { self with queue := [] }

/-! ## What the calls do to the queue -/

/-- There is room for a schedule, in the queue and, where its ESME has any, among those of its ESME. -/
def HasRoom (self : Scheduler) (scheduled : ScheduledMessage) : Prop :=
  self.queue.length < self.config.maxTotal ∧
    ∀ ids, self.byEsme.lookup scheduled.esmeId = some ids → ids.length < self.config.maxPerEsme

/-- A schedule is refused, and nothing changes, or it is put into the queue and into the index. -/
theorem schedule_cases (scheduled : ScheduledMessage) (self : Scheduler) :
    (¬ self.HasRoom scheduled ∧ ∃ e, self.schedule scheduled = (.error e, self)) ∨
      (self.HasRoom scheduled ∧ ∃ stats, self.schedule scheduled = (.ok scheduled.id, { self with
        queue := self.queue ++ [scheduled]
        byEsme := self.byEsme.insert scheduled.esmeId (self.indexed scheduled.esmeId ++ [scheduled.id])
        stats := stats })) := by
  rw [schedule]
  by_cases htotal : self.config.maxTotal ≤ self.queue.length
  · rw [if_pos htotal]
    exact Or.inl ⟨fun hroom => Nat.not_lt.mpr htotal hroom.1, _, rfl⟩
  · rw [if_neg htotal]
    by_cases hesme : ((self.byEsme.lookup scheduled.esmeId).any fun ids =>
        decide (self.config.maxPerEsme ≤ ids.length)) = true
    · rw [if_pos hesme]
      obtain ⟨ids, hids, hfull⟩ := (Option.any_eq_true _ _).mp hesme
      refine Or.inl ⟨fun hroom => ?_, _, rfl⟩
      exact Nat.not_lt.mpr (of_decide_eq_true hfull) (hroom.2 ids hids)
    · rw [if_neg hesme]
      refine Or.inr ⟨⟨Nat.not_le.mp htotal, fun ids hids => Nat.not_le.mp fun hfull => hesme ?_⟩, _, rfl⟩
      exact (Option.any_eq_true _ _).mpr ⟨ids, hids, decide_eq_true hfull⟩

/-- The ESME is refused when its list is full. -/
theorem schedule_esmeLimitExceeded {scheduled : ScheduledMessage} {self : Scheduler}
    (h : (self.schedule scheduled).1 = .error .esmeLimitExceeded) :
    self.config.maxPerEsme ≤ (self.indexed scheduled.esmeId).length := by
  rw [schedule] at h
  split at h
  · exact nomatch h
  · split at h
    · rename_i hesme
      obtain ⟨ids, hids, hfull⟩ := (Option.any_eq_true _ _).mp hesme
      rw [indexed, hids]
      exact of_decide_eq_true hfull
    · exact nomatch h

/-- A cancel removes what has the id, and it is an error when nothing has. -/
theorem cancel_cases (order : IterOrder ScheduledMessage) (scheduleId : String) (self : Scheduler) :
    ∃ stats, (self.cancel order scheduleId).2 = { self with
        queue := (order.arrange self.queue).filter fun msg => msg.id ≠ scheduleId
        stats := stats } ∧
      ((self.cancel order scheduleId).1 = .ok () ∧ (∃ msg ∈ self.queue, msg.id = scheduleId) ∨
        (self.cancel order scheduleId).1 = .error .notFound ∧ ∀ msg ∈ self.queue, msg.id ≠ scheduleId) := by
  rw [cancel]
  by_cases hfound : ((order.arrange self.queue).any fun msg => decide (msg.id = scheduleId)) = true
  · rw [if_pos hfound]
    obtain ⟨msg, hmem, hid⟩ := List.any_eq_true.mp hfound
    exact ⟨_, rfl, Or.inl ⟨rfl, msg, order.mem_arrange.mp hmem, of_decide_eq_true hid⟩⟩
  · rw [if_neg hfound]
    refine ⟨_, rfl, Or.inr ⟨rfl, fun msg hmem hid => hfound ?_⟩⟩
    exact List.any_eq_true.mpr ⟨msg, order.mem_arrange.mpr hmem, decide_eq_true hid⟩

/-- What becomes of a schedule that `get_due` looks at: `true` when it is taken. -/
def taken (p : ScheduledMessage × Bool) : ScheduledMessage := if p.2 then p.1.delivering else p.1

@[simp] theorem taken_id (p : ScheduledMessage × Bool) : (taken p).id = p.1.id := by
  obtain ⟨msg, mark⟩ := p
  cases mark <;> rfl

/-- **What `get_due` does**: it takes some of the schedules, none of which was not Pending or not due. -/
theorem dueLoop_spec (now : SystemTime) (limit : Nat) (found : Nat) (messages : List ScheduledMessage) :
    ∃ marks : List (ScheduledMessage × Bool), marks.map Prod.fst = messages ∧
      dueLoop now limit found messages =
        ((marks.filter fun p => p.2).map fun p => p.1.delivering, marks.map taken) ∧
      ∀ p ∈ marks, p.2 = true → p.1.scheduledAt ≤ now ∧ p.1.status = .pending := by
  induction messages generalizing found with
  | nil => exact ⟨[], rfl, rfl, fun p hp => absurd hp List.not_mem_nil⟩
  | cons msg messages ih =>
    rw [dueLoop]
    by_cases hdue : found < limit ∧ msg.scheduledAt ≤ now ∧ msg.status = .pending
    · obtain ⟨marks, hmessages, hloop, hmarks⟩ := ih (found + 1)
      refine ⟨(msg, true) :: marks, by rw [List.map_cons, hmessages], ?_, ?_⟩
      · rw [if_pos hdue, hloop]
        rfl
      · intro p hp htaken
        rcases List.mem_cons.mp hp with rfl | hp
        · exact hdue.2
        · exact hmarks p hp htaken
    · obtain ⟨marks, hmessages, hloop, hmarks⟩ := ih found
      refine ⟨(msg, false) :: marks, by rw [List.map_cons, hmessages], ?_, ?_⟩
      · rw [if_neg hdue, hloop]
        rfl
      · intro p hp htaken
        rcases List.mem_cons.mp hp with rfl | hp
        · exact nomatch htaken
        · exact hmarks p hp htaken

/-- What `mark_delivered` pushes back in place of a schedule. -/
def kept (scheduleId : String) (msg : ScheduledMessage) : Option ScheduledMessage :=
  if msg.id = scheduleId ∧ msg.status = .delivering then
    if msg.repeatsAfter then some msg.markDelivered else none
  else some msg

/-- `mark_delivered` pushes back what it does not name. -/
theorem kept_of_ne {scheduleId : String} {msg : ScheduledMessage} (h : msg.id ≠ scheduleId) :
    kept scheduleId msg = some msg :=
  if_neg fun hnamed => h hnamed.1

/-- `mark_delivered` finishes the schedule, and takes its id off the index. -/
def Finishes (scheduleId : String) (msg : ScheduledMessage) : Prop :=
  msg.id = scheduleId ∧ msg.status = .delivering ∧ ¬ msg.repeatsAfter = true

instance (scheduleId : String) (msg : ScheduledMessage) : Decidable (Finishes scheduleId msg) :=
  inferInstanceAs (Decidable (_ ∧ _ ∧ _))

/-- What is pushed back is the same schedule still. -/
theorem kept_eq_some {scheduleId : String} {msg msg' : ScheduledMessage} (h : kept scheduleId msg = some msg') :
    msg'.id = msg.id ∧ msg'.esmeId = msg.esmeId := by
  rw [kept] at h
  split at h
  · split at h
    · obtain rfl := Option.some.inj h
      exact ⟨msg.markDelivered_id, msg.markDelivered_esmeId⟩
    · exact nomatch h
  · obtain rfl := Option.some.inj h
    exact ⟨rfl, rfl⟩

/-- What does not depend on the delivery can be looked for before or after. -/
theorem filter_kept {p : ScheduledMessage → Bool} {scheduleId : String}
    (hp : ∀ msg msg', kept scheduleId msg = some msg' → p msg' = p msg) (messages : List ScheduledMessage) :
    (messages.filterMap (kept scheduleId)).filter p = (messages.filter p).filterMap (kept scheduleId) := by
  rw [List.filter_filterMap, List.filterMap_filter]
  refine List.filterMap_congr fun msg _ => ?_
  cases hkept : kept scheduleId msg with
  | none => cases p msg <;> rfl
  | some msg' => rw [Option.filter_some, hp msg msg' hkept]

/-- One turn of the loop, as seen from the queue and from the index. -/
theorem markOne_eq (scheduleId : String) (self : Scheduler) (msg : ScheduledMessage) :
    (markOne scheduleId self msg).queue = self.queue ++ (kept scheduleId msg).toList ∧
      (markOne scheduleId self msg).config = self.config ∧
      ∀ esmeId, (markOne scheduleId self msg).indexed esmeId =
        if Finishes scheduleId msg ∧ msg.esmeId = esmeId then
          (self.indexed esmeId).filter fun id => id ≠ scheduleId
        else self.indexed esmeId := by
  rw [markOne, kept]
  by_cases hnamed : msg.id = scheduleId ∧ msg.status = .delivering
  · rw [if_pos hnamed, if_pos hnamed]
    by_cases hrepeats : msg.repeatsAfter = true
    · rw [if_pos hrepeats]
      refine ⟨?_, ?_, fun esmeId => ?_⟩
      · rw [if_pos (msg.markDelivered_pending.mpr hrepeats)]
        rfl
      · rw [if_pos (msg.markDelivered_pending.mpr hrepeats)]
      · rw [if_pos (msg.markDelivered_pending.mpr hrepeats), if_neg fun h => h.1.2.2 hrepeats]
        rfl
    · have hdone : ¬ msg.markDelivered.status = .pending := fun h => hrepeats (msg.markDelivered_pending.mp h)
      rw [if_neg hrepeats]
      refine ⟨?_, ?_, fun esmeId => ?_⟩
      · rw [if_neg hdone]
        exact (List.append_nil _).symm
      · rw [if_neg hdone]
      · rw [if_neg hdone, msg.markDelivered_esmeId]
        by_cases hesme : msg.esmeId = esmeId
        · rw [if_pos ⟨⟨hnamed.1, hnamed.2, hrepeats⟩, hesme⟩, indexed, indexed, ← hesme, lookup_modify_self]
          cases self.byEsme.lookup msg.esmeId <;> rfl
        · rw [if_neg fun h => hesme h.2, indexed, indexed, lookup_modify_ne _ _ (Ne.symm hesme)]
  · rw [if_neg hnamed, if_neg hnamed]
    refine ⟨rfl, rfl, fun esmeId => ?_⟩
    rw [if_neg fun h => hnamed ⟨h.1.1, h.1.2.1⟩]
    rfl

/-- **What `mark_delivered` does**, turn after turn. -/
theorem foldl_markOne (scheduleId : String) (messages : List ScheduledMessage) (self : Scheduler) :
    (messages.foldl (markOne scheduleId) self).queue = self.queue ++ messages.filterMap (kept scheduleId) ∧
      (messages.foldl (markOne scheduleId) self).config = self.config ∧
      ∀ esmeId, (messages.foldl (markOne scheduleId) self).indexed esmeId =
        if ∃ msg ∈ messages, Finishes scheduleId msg ∧ msg.esmeId = esmeId then
          (self.indexed esmeId).filter fun id => id ≠ scheduleId
        else self.indexed esmeId := by
  induction messages generalizing self with
  | nil =>
    refine ⟨(List.append_nil _).symm, rfl, fun esmeId => ?_⟩
    rw [if_neg]
    · rfl
    · rintro ⟨msg, hmem, -⟩
      exact absurd hmem List.not_mem_nil
  | cons msg messages ih =>
    obtain ⟨hqueue, hconfig, hindex⟩ := ih (markOne scheduleId self msg)
    obtain ⟨hqueue₁, hconfig₁, hindex₁⟩ := markOne_eq scheduleId self msg
    rw [List.foldl_cons]
    refine ⟨?_, hconfig.trans hconfig₁, fun esmeId => ?_⟩
    · rw [hqueue, hqueue₁, List.append_assoc, List.filterMap_cons]
      cases kept scheduleId msg <;> rfl
    · rw [hindex, hindex₁]
      -- an id that was taken off the list twice was taken off once
      by_cases hrest : ∃ msg ∈ messages, Finishes scheduleId msg ∧ msg.esmeId = esmeId
      · have hall : ∃ m ∈ msg :: messages, Finishes scheduleId m ∧ m.esmeId = esmeId := by
          obtain ⟨m, hmem, hm⟩ := hrest
          exact ⟨m, List.mem_cons_of_mem _ hmem, hm⟩
        rw [if_pos hrest, if_pos hall]
        split
        · rw [List.filter_filter]
          simp only [Bool.and_self]
        · rfl
      · rw [if_neg hrest]
        by_cases hfirst : Finishes scheduleId msg ∧ msg.esmeId = esmeId
        · rw [if_pos hfirst, if_pos ⟨msg, List.mem_cons_self, hfirst⟩]
        · rw [if_neg hfirst, if_neg]
          rintro ⟨m, hmem, hm⟩
          rcases List.mem_cons.mp hmem with rfl | hmem
          · exact hfirst hm
          · exact hrest ⟨m, hmem, hm⟩

end Scheduler

end Smppd.Store
