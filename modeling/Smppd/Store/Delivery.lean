/-
  The DELIVERY DISCIPLINE of the scheduler: what happens to one schedule, whatever happens to the others.

  The calls on a scheduler leave a record of `SchedulerEvent`s.  What it says ABOUT ONE ID is a word, and the
  word is the life of that schedule: it is scheduled, it goes out, it comes back marked, it goes out again or has
  ended.  `Life` is the machine that reads such words.  Two things are proved.

  1. The scheduler FOLLOWS the machine (`follows_call`, `follows_run`): whatever a call does, the events about
     an id are a step of its life, and the queue holds the schedule that is alive, once, and none that is not
     yet or no longer.  This is where a drained heap could lose, double or change a schedule.

  2. Whoever follows the machine is DISCIPLINED, which is a fact about words: what is out stays out until it is
     marked or cancelled (`run_out`), what has ended has ended (`run_ended`), and no more can go out than is left
     (`run_left`).

  An id is scheduled once, as Pending and with no deliveries: that is what `Once` asks of the record.
-/
import Smppd.Lib.Machine
import Smppd.Lib.Transducer
import Smppd.Store.Scheduler

set_option linter.unusedVariables false

namespace Smppd.Store

open Table Machine Transducer

/-! ## Calls, and the record they leave -/

/-- A call on a scheduler, with what the environment decides. -/
inductive SchedulerCall where
  | schedule (scheduled : ScheduledMessage)
  | cancel (order : IterOrder ScheduledMessage) (scheduleId : String)
  | getDue (order : IterOrder ScheduledMessage) (now : SystemTime) (limit : Nat)
  | markDelivered (order : IterOrder ScheduledMessage) (scheduleId : String)

/-- The id that a call names. -/
def SchedulerCall.named : SchedulerCall → Option String
  | .schedule scheduled => some scheduled.id
  | .cancel _ scheduleId => some scheduleId
  | .getDue _ _ _ => none
  | .markDelivered _ scheduleId => some scheduleId

/-- What a call is seen to do. -/
inductive SchedulerEvent where
  /-- It was accepted. -/
  | scheduled (msg : ScheduledMessage)
  /-- `get_due` returned it. -/
  | returned (msg : ScheduledMessage)
  /-- `mark_delivered` was called. -/
  | marked (scheduleId : String)
  /-- `cancel` succeeded. -/
  | cancelled (scheduleId : String)

namespace SchedulerEvent

/-- The id that an event is about. -/
def id : SchedulerEvent → String
  | .scheduled msg => msg.id
  | .returned msg => msg.id
  | .marked scheduleId => scheduleId
  | .cancelled scheduleId => scheduleId

/-- Something was returned. -/
def isReturned : SchedulerEvent → Bool
  | .returned _ => true
  | _ => false

/-- What was scheduled. -/
def accepted : SchedulerEvent → Option ScheduledMessage
  | .scheduled msg => some msg
  | _ => none

end SchedulerEvent

/-- What a record says about an id. -/
def about (id : String) (events : List SchedulerEvent) : List SchedulerEvent := events.filter fun e => e.id = id

/-- How often it was returned. -/
def returns (id : String) (events : List SchedulerEvent) : Nat := (about id events).countP SchedulerEvent.isReturned

/-- An id is scheduled once, as Pending and with no deliveries. -/
structure Once (events : List SchedulerEvent) : Prop where
  nodup : ((events.filterMap SchedulerEvent.accepted).map ScheduledMessage.id).Nodup
  fresh : ∀ msg ∈ events.filterMap SchedulerEvent.accepted, msg.status = .pending ∧ msg.deliveryCount = 0

/-! ### What a record says about an id -/

theorem about_cons_self {e : SchedulerEvent} {id : String} (h : e.id = id) (events : List SchedulerEvent) :
    about id (e :: events) = e :: about id events :=
  List.filter_cons_of_pos (decide_eq_true h)

theorem about_singleton_self {e : SchedulerEvent} {id : String} (h : e.id = id) : about id [e] = [e] :=
  List.filter_cons_of_pos (decide_eq_true h)

theorem about_singleton_ne {e : SchedulerEvent} {id : String} (h : e.id ≠ id) : about id [e] = [] :=
  List.filter_cons_of_neg fun hid => h (of_decide_eq_true hid)

theorem about_returned (id : String) (due : List ScheduledMessage) :
    about id (due.map .returned) = (due.filter fun msg => decide (msg.id = id)).map .returned := by
  rw [about, List.filter_map]
  rfl

theorem about_append (id : String) (events more : List SchedulerEvent) :
    about id (events ++ more) = about id events ++ about id more := List.filter_append _ _

theorem mem_about {id : String} {events : List SchedulerEvent} {e : SchedulerEvent} :
    e ∈ about id events ↔ e ∈ events ∧ e.id = id := by
  rw [about, List.mem_filter, decide_eq_true_iff]

theorem mem_accepted {events : List SchedulerEvent} {msg : ScheduledMessage} :
    msg ∈ events.filterMap SchedulerEvent.accepted ↔ .scheduled msg ∈ events := by
  rw [List.mem_filterMap]
  constructor
  · rintro ⟨e, hmem, he⟩
    cases e with
    | scheduled m =>
      obtain rfl := Option.some.inj he
      exact hmem
    | _ => exact nomatch he
  · exact fun hmem => ⟨_, hmem, rfl⟩

theorem Once.left {events more : List SchedulerEvent} (h : Once (events ++ more)) : Once events := by
  obtain ⟨hnodup, hfresh⟩ := h
  rw [List.filterMap_append] at hnodup hfresh
  rw [List.map_append] at hnodup
  exact ⟨hnodup.of_append_left, fun msg hmem => hfresh msg (List.mem_append_left _ hmem)⟩

/-- What is scheduled now was not scheduled before. -/
theorem Once.notMem {events more : List SchedulerEvent} (h : Once (events ++ more)) {msg msg' : ScheduledMessage}
    (hmem : .scheduled msg ∈ events) (hmem' : .scheduled msg' ∈ more) : msg.id ≠ msg'.id := by
  have hnodup := h.nodup
  rw [List.filterMap_append, List.map_append] at hnodup
  intro heq
  refine (List.disjoint_of_nodup_append hnodup) (List.mem_map_of_mem (mem_accepted.mpr hmem)) ?_
  rw [heq]
  exact List.mem_map_of_mem (mem_accepted.mpr hmem')

namespace Scheduler

/-- A call: what it is seen to do, and the scheduler afterwards. -/
def step (self : Scheduler) : SchedulerCall → List SchedulerEvent × Scheduler
  | .schedule scheduled =>
    match self.schedule scheduled with
    | (.ok _, self) => ([.scheduled scheduled], self)
    | (.error _, self) => ([], self)
  | .cancel order scheduleId =>
    match self.cancel order scheduleId with
    | (.ok _, self) => ([.cancelled scheduleId], self)
    | (.error _, self) => ([], self)
  | .getDue order now limit =>
    let (due, self) := self.getDue order now limit
    (due.map .returned, self)
  | .markDelivered order scheduleId => ([.marked scheduleId], self.markDelivered order scheduleId)

/-- The record of the calls on a new scheduler. -/
def record (config : SchedulerConfig) (calls : List SchedulerCall) : List SchedulerEvent :=
  (play step (.new config) calls).1.flatten

/-- The scheduler after them. -/
def reached (config : SchedulerConfig) (calls : List SchedulerCall) : Scheduler := (play step (.new config) calls).2

end Scheduler

/-! ## The life of a schedule -/

/-- Where the schedule with an id stands. -/
inductive Life where
  /-- It was not scheduled. -/
  | unborn
  | live (msg : ScheduledMessage)
  /-- It was completed or cancelled. -/
  | ended

namespace Life

/-- What follows a call of `mark_delivered`. -/
def mark (msg : ScheduledMessage) : Life :=
  if msg.status = .delivering then
    if msg.repeatsAfter then .live msg.markDelivered else .ended
  else .live msg

/-- What an event makes of it; `none` when it cannot be. -/
def step : Life → SchedulerEvent → Option Life
  | .unborn, .scheduled msg => some (.live msg)
  | .unborn, .marked _ => some .unborn
  | .live msg, .returned _ => if msg.status = .pending then some (.live msg.delivering) else none
  | .live msg, .marked _ => some (mark msg)
  | .live _, .cancelled _ => some .ended
  | .ended, .marked _ => some .ended
  | _, _ => none

/-- What the queue holds of it. -/
def entries : Life → List ScheduledMessage
  | .live msg => [msg]
  | _ => []

/-! ### What a word of life says -/

/-- What was not scheduled is not alive. -/
theorem run_unborn {w : List SchedulerEvent} {l : Life} (h : run step .unborn w = some l)
    (hw : ∀ msg, .scheduled msg ∉ w) : l = .unborn ∧ w.countP SchedulerEvent.isReturned = 0 := by
  induction w with
  | nil => exact ⟨(Option.some.inj h).symm, rfl⟩
  | cons e w ih =>
    obtain ⟨l', hstep, hrun⟩ := run_cons_eq_some.mp h
    cases e with
    | scheduled msg => exact absurd List.mem_cons_self (hw msg)
    | returned msg => exact nomatch hstep
    | cancelled id => exact nomatch hstep
    | marked id =>
      obtain rfl := Option.some.inj hstep
      exact ih hrun fun msg hmem => hw msg (List.mem_cons_of_mem _ hmem)

/-- **What has ended has ended**: nothing is returned any more. -/
theorem run_ended {w : List SchedulerEvent} {l : Life} (h : run step .ended w = some l) :
    l = .ended ∧ w.countP SchedulerEvent.isReturned = 0 := by
  induction w with
  | nil => exact ⟨(Option.some.inj h).symm, rfl⟩
  | cons e w ih =>
    obtain ⟨l', hstep, hrun⟩ := run_cons_eq_some.mp h
    cases e with
    | marked id =>
      obtain rfl := Option.some.inj hstep
      exact ih hrun
    | _ => exact nomatch hstep

/-- **What is out stays out** until it is marked: before that, nothing is returned. -/
theorem run_out {msg : ScheduledMessage} (hout : msg.status ≠ .pending) {w : List SchedulerEvent} {l : Life}
    (h : run step (.live msg) w = some l) (hw : ∀ id, .marked id ∉ w) : w.countP SchedulerEvent.isReturned = 0 := by
  induction w with
  | nil => rfl
  | cons e w ih =>
    obtain ⟨l', hstep, hrun⟩ := run_cons_eq_some.mp h
    cases e with
    | scheduled msg => exact nomatch hstep
    | marked id => exact absurd List.mem_cons_self (hw id)
    | returned msg =>
      rw [step, if_neg hout] at hstep
      exact nomatch hstep
    | cancelled id =>
      obtain rfl := Option.some.inj hstep
      exact (run_ended hrun).2

/-- How many times the schedule can still be returned, where that is bounded. -/
def left (msg : ScheduledMessage) : Nat :=
  if msg.recurrence = none then (if msg.status = .pending then 1 else 0)
  else msg.maxDeliveries.toNat - msg.deliveryCount.toNat - (if msg.status = .pending then 0 else 1)

/-- A schedule that does not repeat, or one that repeats a given number of times and is not done. -/
def Bounded (msg : ScheduledMessage) : Prop :=
  msg.recurrence = none ∨ msg.deliveryCount.toNat < msg.maxDeliveries.toNat

/-- What goes out is one less. -/
theorem left_delivering {msg : ScheduledMessage} (hbounded : Bounded msg) (hpending : msg.status = .pending) :
    left msg = left msg.delivering + 1 := by
  have hout : msg.delivering.status ≠ .pending := nofun
  show (if msg.recurrence = none then _ else _) = (if msg.recurrence = none then _ else _) + 1
  by_cases hnone : msg.recurrence = none
  · rw [if_pos hnone, if_pos hnone, if_pos hpending, if_neg hout]
  · rw [if_neg hnone, if_neg hnone, if_pos hpending, if_neg hout]
    have hcount := hbounded.resolve_left hnone
    show _ = msg.maxDeliveries.toNat - msg.deliveryCount.toNat - 1 + 1
    omega

/-- What comes back and goes on is as many as it was, and is not done. -/
theorem left_markDelivered {msg : ScheduledMessage} (hbounded : Bounded msg) (hout : msg.status = .delivering)
    (hrepeats : msg.repeatsAfter = true) :
    Bounded msg.markDelivered ∧ left msg.markDelivered = left msg := by
  obtain ⟨hrule, hmax⟩ := msg.repeatsAfter_iff.mp hrepeats
  have hcount := hbounded.resolve_left hrule
  have hpending : msg.markDelivered.status = .pending := msg.markDelivered_pending.mpr hrepeats
  have hlimited : msg.deliveryCount + 1 < msg.maxDeliveries := by
    refine hmax.resolve_left fun hzero => ?_
    rw [hzero] at hcount
    exact Nat.not_lt_zero _ hcount
  -- the count does not wrap below the maximum
  have hnext : (msg.deliveryCount + 1).toNat = msg.deliveryCount.toNat + 1 := by
    have := msg.maxDeliveries.toNat_lt
    rw [UInt32.toNat_add]
    exact Nat.mod_eq_of_lt (by show _ + 1 < 4294967296; omega)
  have hless : (msg.deliveryCount + 1).toNat < msg.maxDeliveries.toNat := hlimited
  have hfields : msg.markDelivered.recurrence = msg.recurrence ∧
      msg.markDelivered.maxDeliveries = msg.maxDeliveries ∧
      msg.markDelivered.deliveryCount = msg.deliveryCount + 1 := by
    rw [msg.markDelivered_eq]
    exact ⟨rfl, rfl, rfl⟩
  obtain ⟨hrecurrence, hmaximum, hdelivered⟩ := hfields
  constructor
  · right
    rw [hmaximum, hdelivered]
    exact hless
  · rw [left, left, hrecurrence, hmaximum, hdelivered, if_neg hrule, if_neg hrule, if_pos hpending, hnext, hout]
    show _ - 0 = _ - 1
    omega

/-- **No more is returned than is left.** -/
theorem run_left {msg : ScheduledMessage} (hbounded : Bounded msg) {w : List SchedulerEvent} {l : Life}
    (h : run step (.live msg) w = some l) : w.countP SchedulerEvent.isReturned ≤ left msg := by
  induction w generalizing msg with
  | nil => exact Nat.zero_le _
  | cons e w ih =>
    obtain ⟨l', hstep, hrun⟩ := run_cons_eq_some.mp h
    cases e with
    | scheduled msg => exact nomatch hstep
    | cancelled id =>
      obtain rfl := Option.some.inj hstep
      exact Nat.le_trans (Nat.le_of_eq (run_ended hrun).2) (Nat.zero_le _)
    | returned m =>
      rw [step] at hstep
      by_cases hpending : msg.status = .pending
      · rw [if_pos hpending] at hstep
        obtain rfl := Option.some.inj hstep
        have hleft := left_delivering hbounded hpending
        have hrest : w.countP SchedulerEvent.isReturned ≤ left msg.delivering := ih hbounded hrun
        rw [List.countP_cons_of_pos rfl]
        omega
      · rw [if_neg hpending] at hstep
        exact nomatch hstep
    | marked id =>
      obtain rfl := Option.some.inj hstep
      show w.countP SchedulerEvent.isReturned ≤ _
      rw [mark] at hrun
      by_cases hout : msg.status = .delivering
      · rw [if_pos hout] at hrun
        by_cases hrepeats : msg.repeatsAfter = true
        · rw [if_pos hrepeats] at hrun
          obtain ⟨hbounded', hleft⟩ := left_markDelivered hbounded hout hrepeats
          rw [← hleft]
          exact ih hbounded' hrun
        · rw [if_neg hrepeats] at hrun
          exact Nat.le_trans (Nat.le_of_eq (run_ended hrun).2) (Nat.zero_le _)
      · rw [if_neg hout] at hrun
        exact ih hbounded hrun

/-- At most one entry is in every order the same. -/
theorem eq_entries_of_perm {l : Life} {messages : List ScheduledMessage} (h : messages.Perm l.entries) :
    messages = l.entries := by
  cases l with
  | live msg => exact List.perm_singleton.mp h
  | unborn => exact List.perm_nil.mp h
  | ended => exact List.perm_nil.mp h

end Life

/-! ## The calls, as they are seen -/

namespace Scheduler

/-- A schedule that is refused, and one that is accepted, as they are seen. -/
theorem step_schedule (msg : ScheduledMessage) (self : Scheduler) :
    (¬ self.HasRoom msg ∧ self.step (.schedule msg) = ([], self)) ∨
      (self.HasRoom msg ∧ ∃ stats, self.step (.schedule msg) = ([.scheduled msg], { self with
        queue := self.queue ++ [msg]
        byEsme := self.byEsme.insert msg.esmeId (self.indexed msg.esmeId ++ [msg.id])
        stats := stats })) := by
  rw [step]
  rcases self.schedule_cases msg with ⟨hfull, e, hrefused⟩ | ⟨hroom, stats, haccepted⟩
  · rw [hrefused]
    exact Or.inl ⟨hfull, rfl⟩
  · rw [haccepted]
    exact Or.inr ⟨hroom, stats, rfl⟩

/-- A cancel, as it is seen. -/
theorem step_cancel (order : IterOrder ScheduledMessage) (scheduleId : String) (self : Scheduler) :
    (self.step (.cancel order scheduleId)).2.queue =
        (order.arrange self.queue).filter (fun msg => decide (msg.id ≠ scheduleId)) ∧
      ((self.step (.cancel order scheduleId)).1 = [.cancelled scheduleId] ∧ (∃ msg ∈ self.queue, msg.id = scheduleId) ∨
        (self.step (.cancel order scheduleId)).1 = [] ∧ ∀ msg ∈ self.queue, msg.id ≠ scheduleId) := by
  obtain ⟨stats, hself, hanswer⟩ := self.cancel_cases order scheduleId
  rw [step]
  rcases hcancel : self.cancel order scheduleId with ⟨answer, next⟩
  rw [hcancel] at hself hanswer
  obtain rfl := hself
  rcases hanswer with ⟨rfl, hfound⟩ | ⟨rfl, hnone⟩
  · exact ⟨rfl, Or.inl ⟨rfl, hfound⟩⟩
  · exact ⟨rfl, Or.inr ⟨rfl, hnone⟩⟩

/-- What `get_due` takes, as it is seen. -/
theorem step_getDue (order : IterOrder ScheduledMessage) (now : SystemTime) (limit : Nat) (self : Scheduler) :
    ∃ marks : List (ScheduledMessage × Bool), marks.map Prod.fst = order.arrange self.queue ∧
      self.step (.getDue order now limit) =
        (((marks.filter fun p => p.2).map fun p => p.1.delivering).map .returned,
          { self with queue := marks.map taken }) ∧
      ∀ p ∈ marks, p.2 = true → p.1.scheduledAt ≤ now ∧ p.1.status = .pending := by
  obtain ⟨marks, hmessages, hloop, hmarks⟩ := dueLoop_spec now limit 0 (order.arrange self.queue)
  refine ⟨marks, hmessages, ?_, hmarks⟩
  rw [step, getDue, hloop]

/-- What `mark_delivered` pushes back. -/
theorem step_markDelivered (order : IterOrder ScheduledMessage) (scheduleId : String) (self : Scheduler) :
    (self.step (.markDelivered order scheduleId)).2.queue =
      (order.arrange self.queue).filterMap (kept scheduleId) := by
  rw [step, markDelivered, (foldl_markOne _ _ _).1]
  rfl

end Scheduler

/-! ## The scheduler follows -/

namespace Scheduler

/-- What the queue holds with an id. -/
def queued (self : Scheduler) (id : String) : List ScheduledMessage := self.queue.filter fun msg => msg.id = id

/-- The scheduler holds of every id what its life says. -/
def Follows (events : List SchedulerEvent) (self : Scheduler) : Prop :=
  ∀ id, ∃ l, run Life.step .unborn (about id events) = some l ∧ self.queued id = l.entries

variable {self : Scheduler} {id : String} {l : Life}

/-- A drain meets what the queue holds. -/
theorem filter_arrange (order : IterOrder ScheduledMessage) (h : self.queued id = l.entries) :
    ((order.arrange self.queue).filter fun msg => decide (msg.id = id)) = l.entries :=
  Life.eq_entries_of_perm (h ▸ (order.perm self.queue).filter _)

theorem queued_append_self (queue : List ScheduledMessage) {msg : ScheduledMessage} (hid : msg.id = id) :
    ((queue ++ [msg]).filter fun m => decide (m.id = id)) = (queue.filter fun m => decide (m.id = id)) ++ [msg] := by
  have hone : ([msg].filter fun m => decide (m.id = id)) = [msg] := List.filter_cons_of_pos (decide_eq_true hid)
  rw [List.filter_append, hone]

theorem queued_append_ne (queue : List ScheduledMessage) {msg : ScheduledMessage} (hid : msg.id ≠ id) :
    ((queue ++ [msg]).filter fun m => decide (m.id = id)) = queue.filter fun m => decide (m.id = id) := by
  have hnone : ([msg].filter fun m => decide (m.id = id)) = [] :=
    List.filter_cons_of_neg fun h => hid (of_decide_eq_true h)
  rw [List.filter_append, hnone, List.append_nil]

theorem follows_schedule (h : self.queued id = l.entries) (msg : ScheduledMessage)
    (hfresh : .scheduled msg ∈ (self.step (.schedule msg)).1 → msg.id = id → l = .unborn) :
    ∃ l', run Life.step l (about id (self.step (.schedule msg)).1) = some l' ∧
      (self.step (.schedule msg)).2.queued id = l'.entries := by
  rcases step_schedule msg self with ⟨-, hrefused⟩ | ⟨-, stats, haccepted⟩
  · rw [hrefused]
    exact ⟨l, rfl, h⟩
  · rw [haccepted] at hfresh ⊢
    by_cases hid : msg.id = id
    · obtain rfl := hfresh (List.mem_singleton_self _) hid
      have hnone : (self.queue.filter fun m => decide (m.id = id)) = [] := h
      refine ⟨.live msg, ?_, ?_⟩
      · rw [about_singleton_self (e := .scheduled msg) hid]
        rfl
      · rw [queued, queued_append_self self.queue hid, hnone]
        rfl
    · refine ⟨l, ?_, ?_⟩
      · rw [about_singleton_ne (e := .scheduled msg) hid]
        rfl
      · rw [queued, queued_append_ne self.queue hid]
        exact h

/-- What the queue holds with an id has the id. -/
theorem id_of_mem_entries (h : self.queued id = l.entries) {msg : ScheduledMessage} (hmem : msg ∈ l.entries) :
    msg.id = id := by
  rw [← h] at hmem
  exact of_decide_eq_true (List.mem_filter.mp hmem).2

theorem follows_cancel (h : self.queued id = l.entries) (order : IterOrder ScheduledMessage) (scheduleId : String) :
    ∃ l', run Life.step l (about id (self.step (.cancel order scheduleId)).1) = some l' ∧
      (self.step (.cancel order scheduleId)).2.queued id = l'.entries := by
  obtain ⟨hqueue, hseen⟩ := step_cancel order scheduleId self
  have hqueued : (self.step (.cancel order scheduleId)).2.queued id =
      l.entries.filter fun msg => decide (msg.id ≠ scheduleId) := by
    rw [queued, hqueue, ← filter_arrange order h]
    exact List.filter_comm _ _ _
  by_cases hid : scheduleId = id
  · -- what has the id is gone
    have hgone : (self.step (.cancel order scheduleId)).2.queued id = [] := by
      rw [hqueued, List.filter_eq_nil_iff]
      intro msg hmem
      rw [hid, id_of_mem_entries h hmem]
      simp
    rcases hseen with ⟨hseen, msg, hmem, hmsg⟩ | ⟨hseen, hnone⟩
    · have hlive : msg ∈ l.entries := by
        rw [← h]
        exact List.mem_filter.mpr ⟨hmem, decide_eq_true (hmsg.trans hid)⟩
      rw [hseen, about_singleton_self (e := .cancelled scheduleId) hid]
      refine ⟨.ended, ?_, hgone⟩
      cases l with
      | live m => rfl
      | unborn => exact absurd hlive List.not_mem_nil
      | ended => exact absurd hlive List.not_mem_nil
    · have hempty : l.entries = [] := by
        rw [← h]
        exact List.filter_eq_nil_iff.mpr fun m hm => by simp [hnone m hm, ← hid]
      rw [hseen]
      exact ⟨l, rfl, by rw [hgone, hempty]⟩
  · -- it was about another
    have hother : about id (self.step (.cancel order scheduleId)).1 = [] := by
      rcases hseen with ⟨hseen, -⟩ | ⟨hseen, -⟩
      · rw [hseen, about_singleton_ne (e := .cancelled scheduleId) hid]
      · rw [hseen]
        rfl
    rw [hother]
    refine ⟨l, rfl, ?_⟩
    rw [hqueued, List.filter_eq_self]
    intro msg hmem
    rw [id_of_mem_entries h hmem]
    exact decide_eq_true (Ne.symm hid)

/-- Of the schedules that `get_due` looks at, those with an id, and what becomes of them. -/
theorem filter_taken (marks : List (ScheduledMessage × Bool)) (id : String) :
    (((marks.filter fun p => p.2).map fun p => p.1.delivering).filter fun msg => decide (msg.id = id)) =
        ((marks.filter fun p => decide (p.1.id = id)).filter fun p => p.2).map (fun p => p.1.delivering) ∧
      ((marks.map taken).filter fun msg => decide (msg.id = id)) =
        (marks.filter fun p => decide (p.1.id = id)).map taken := by
  constructor
  · rw [List.filter_map, List.filter_comm]
    rfl
  · rw [List.filter_map]
    congr 1
    exact List.filter_congr fun p _ => by rw [Function.comp, taken_id]

theorem follows_getDue (h : self.queued id = l.entries) (order : IterOrder ScheduledMessage) (now : SystemTime)
    (limit : Nat) :
    ∃ l', run Life.step l (about id (self.step (.getDue order now limit)).1) = some l' ∧
      (self.step (.getDue order now limit)).2.queued id = l'.entries := by
  obtain ⟨marks, hmessages, hstep, hmarks⟩ := step_getDue order now limit self
  obtain ⟨hdue, hqueue⟩ := filter_taken marks id
  have hentries := filter_arrange order h
  rw [← hmessages, List.filter_map] at hentries
  rw [hstep, about_returned, hdue, queued, hqueue]
  cases l with
  | live msg =>
    obtain ⟨⟨m, mark⟩, hone, rfl⟩ := List.map_eq_singleton_iff.mp hentries
    have hone : (marks.filter fun p => decide (p.1.id = id)) = [(m, mark)] := hone
    rw [hone]
    cases mark with
    | true =>
      have hmem : (m, true) ∈ marks := List.mem_of_mem_filter (hone ▸ List.mem_singleton_self _)
      refine ⟨.live m.delivering, ?_, rfl⟩
      show (Life.step (.live m) _).bind _ = _
      rw [Life.step, if_pos (hmarks _ hmem rfl).2]
      rfl
    | false => exact ⟨.live m, rfl, rfl⟩
  | unborn =>
    have hnone : (marks.filter fun p => decide (p.1.id = id)) = [] := List.map_eq_nil_iff.mp hentries
    rw [hnone]
    exact ⟨.unborn, rfl, rfl⟩
  | ended =>
    have hnone : (marks.filter fun p => decide (p.1.id = id)) = [] := List.map_eq_nil_iff.mp hentries
    rw [hnone]
    exact ⟨.ended, rfl, rfl⟩

/-- What `mark_delivered` pushes back keeps its id. -/
theorem filter_id_kept (scheduleId : String) (messages : List ScheduledMessage) (id : String) :
    ((messages.filterMap (kept scheduleId)).filter fun msg => decide (msg.id = id)) =
      (messages.filter fun msg => decide (msg.id = id)).filterMap (kept scheduleId) :=
  filter_kept (fun msg msg' hkept => by rw [(kept_eq_some hkept).1]) messages

theorem follows_markDelivered (h : self.queued id = l.entries) (order : IterOrder ScheduledMessage)
    (scheduleId : String) :
    ∃ l', run Life.step l (about id (self.step (.markDelivered order scheduleId)).1) = some l' ∧
      (self.step (.markDelivered order scheduleId)).2.queued id = l'.entries := by
  have hqueued : (self.step (.markDelivered order scheduleId)).2.queued id =
      l.entries.filterMap (kept scheduleId) := by
    rw [queued, step_markDelivered, filter_id_kept, filter_arrange order h]
  rw [hqueued, step]
  by_cases hid : scheduleId = id
  · rw [about_singleton_self (e := .marked scheduleId) hid]
    cases l with
    | unborn => exact ⟨.unborn, rfl, rfl⟩
    | ended => exact ⟨.ended, rfl, rfl⟩
    | live msg =>
      refine ⟨.mark msg, rfl, ?_⟩
      have hmsg : msg.id = scheduleId := (id_of_mem_entries h (List.mem_singleton_self _)).trans hid.symm
      show [msg].filterMap (kept scheduleId) = _
      rw [List.filterMap_cons, kept, Life.mark, hmsg]
      by_cases hout : msg.status = .delivering
      · rw [if_pos ⟨rfl, hout⟩, if_pos hout]
        cases msg.repeatsAfter <;> rfl
      · rw [if_neg fun h => hout h.2, if_neg hout]
        rfl
  · rw [about_singleton_ne (e := .marked scheduleId) hid]
    refine ⟨l, rfl, ?_⟩
    have hkept : ∀ msg ∈ l.entries, kept scheduleId msg = some msg := by
      intro msg hmem
      exact kept_of_ne fun hnamed => hid (hnamed.symm.trans (id_of_mem_entries h hmem))
    rw [List.filterMap_congr hkept, List.filterMap_some]

/-- **The scheduler follows, call by call**: the events about an id are a step of its life, and afterwards the
    queue holds what is alive. -/
theorem follows_call (h : self.queued id = l.entries) (call : SchedulerCall)
    (hfresh : ∀ msg, .scheduled msg ∈ (self.step call).1 → msg.id = id → l = .unborn) :
    ∃ l', run Life.step l (about id (self.step call).1) = some l' ∧ (self.step call).2.queued id = l'.entries := by
  cases call with
  | schedule msg => exact follows_schedule h msg (hfresh msg)
  | cancel order scheduleId => exact follows_cancel h order scheduleId
  | getDue order now limit => exact follows_getDue h order now limit
  | markDelivered order scheduleId => exact follows_markDelivered h order scheduleId

/-! ## Whole runs -/

theorem record_append (config : SchedulerConfig) (calls more : List SchedulerCall) :
    record config (calls ++ more) = record config calls ++ (play step (reached config calls) more).1.flatten := by
  rw [record, play_append, List.flatten_append]
  rfl

theorem record_append_singleton (config : SchedulerConfig) (calls : List SchedulerCall) (call : SchedulerCall) :
    record config (calls ++ [call]) = record config calls ++ ((reached config calls).step call).1 := by
  rw [record_append]
  show _ ++ (_ ++ []) = _
  rw [List.append_nil]

theorem reached_append (config : SchedulerConfig) (calls : List SchedulerCall) (call : SchedulerCall) :
    reached config (calls ++ [call]) = ((reached config calls).step call).2 := by
  rw [reached, play_append]
  rfl

/-- **The scheduler follows**, whatever the calls are, as long as no id is scheduled twice. -/
theorem follows_run {config : SchedulerConfig} {calls : List SchedulerCall} (h : Once (record config calls)) :
    Follows (record config calls) (reached config calls) := by
  induction calls using List.reverseRecOn with
  | nil => exact fun id => ⟨.unborn, rfl, rfl⟩
  | append_singleton calls call ih =>
    rw [record_append_singleton] at h ⊢
    rw [reached_append]
    intro id
    obtain ⟨l, hword, hqueue⟩ := ih h.left id
    obtain ⟨l', hstep, hqueue'⟩ := follows_call hqueue call fun msg hmem hid => by
      refine (Life.run_unborn hword fun msg' hmem' => ?_).1
      obtain ⟨hbefore, hid'⟩ := mem_about.mp hmem'
      exact h.notMem hbefore hmem (hid'.trans hid.symm)
    refine ⟨l', ?_, hqueue'⟩
    rw [about_append, run_append, hword]
    exact hstep

end Scheduler

/-! ## The discipline -/

/-- What a record says of every id. -/
structure Disciplined (events : List SchedulerEvent) : Prop where
  /-- Between two returns it is marked. -/
  marked : ∀ before between later msg msg',
    events = before ++ .returned msg :: (between ++ .returned msg' :: later) → msg.id = msg'.id →
      .marked msg.id ∈ between
  /-- What does not repeat is returned at most once. -/
  single : ∀ msg, .scheduled msg ∈ events → msg.recurrence = none → returns msg.id events ≤ 1
  /-- What repeats up to a maximum is returned no more often than that. -/
  atMost : ∀ msg, .scheduled msg ∈ events → msg.recurrence ≠ none → 0 < msg.maxDeliveries →
    returns msg.id events ≤ msg.maxDeliveries.toNat
  /-- What was cancelled is never returned again. -/
  cancelled : ∀ before later id, events = before ++ .cancelled id :: later → returns id later = 0

/-- What holds of a single call. -/
structure Sound (self : Scheduler) (call : SchedulerCall) : Prop where
  /-- What is returned was Pending, and its time has come. -/
  due : ∀ msg, .returned msg ∈ (self.step call).1 → ∃ order now limit, call = .getDue order now limit ∧
    ∃ entry ∈ self.queue, entry.status = .pending ∧ entry.scheduledAt ≤ now ∧ msg = entry.delivering
  /-- An id has one entry in the queue, if any. -/
  unique : ∀ id, (self.queued id).length ≤ 1 ∧ ((self.step call).2.queued id).length ≤ 1
  /-- What the queue holds of an id that is neither named nor returned stays as it is. -/
  frame : ∀ id, call.named ≠ some id → (∀ msg, .returned msg ∈ (self.step call).1 → msg.id ≠ id) →
    ((self.step call).2.queued id).Perm (self.queued id)

/-- A record that a life reads, read at an event about it. -/
theorem run_split {before later : List SchedulerEvent} {e : SchedulerEvent} {l : Life}
    (h : run Life.step .unborn (about e.id (before ++ e :: later)) = some l) :
    ∃ l₁ l₂, run Life.step .unborn (about e.id before) = some l₁ ∧ l₁.step e = some l₂ ∧
      run Life.step l₂ (about e.id later) = some l := by
  have hcons : about e.id (before ++ e :: later) = about e.id before ++ e :: about e.id later := by
    rw [about_append, about_cons_self rfl]
  rw [hcons, run_append] at h
  obtain ⟨l₁, hbefore, hrest⟩ := Option.bind_eq_some_iff.mp h
  obtain ⟨l₂, hstep, hlater⟩ := run_cons_eq_some.mp hrest
  exact ⟨l₁, l₂, hbefore, hstep, hlater⟩

/-- The bound that the life of a schedule sets to its returns, from the beginning. -/
theorem returns_le_left {events : List SchedulerEvent} (honce : Once events) {msg : ScheduledMessage} {l : Life}
    (hmem : .scheduled msg ∈ events) (hrun : run Life.step .unborn (about msg.id events) = some l)
    (hbounded : Life.Bounded msg) : returns msg.id events ≤ Life.left msg := by
  obtain ⟨before, later, rfl⟩ := List.append_of_mem hmem
  obtain ⟨l₁, l₂, hbefore, hstep, hlater⟩ := run_split (e := .scheduled msg) hrun
  -- nothing of the schedule is recorded before it is scheduled
  obtain ⟨rfl, hnone⟩ := Life.run_unborn hbefore fun msg' hmem' => by
    obtain ⟨hin, hid⟩ := mem_about.mp hmem'
    exact honce.notMem hin List.mem_cons_self hid
  obtain rfl := Option.some.inj hstep
  have hleft := Life.run_left hbounded hlater
  have hcount : returns msg.id (before ++ .scheduled msg :: later) =
      (about msg.id before).countP SchedulerEvent.isReturned +
        (about msg.id later).countP SchedulerEvent.isReturned := by
    have hcons : about msg.id (.scheduled msg :: later) = .scheduled msg :: about msg.id later :=
      about_cons_self rfl later
    have hquiet : ¬ SchedulerEvent.isReturned (.scheduled msg) = true := nofun
    rw [returns, about_append, List.countP_append, hcons, List.countP_cons_of_neg hquiet]
  have hbefore : (about msg.id before).countP SchedulerEvent.isReturned = 0 := hnone
  have hafter : (about msg.id later).countP SchedulerEvent.isReturned ≤ Life.left msg := hleft
  omega

/-- Between two returns a schedule is marked. -/
theorem marked_between {before between later : List SchedulerEvent} {msg msg' : ScheduledMessage} {l : Life}
    (hid : msg'.id = msg.id)
    (hrun : run Life.step .unborn (about msg.id (before ++ .returned msg :: (between ++ .returned msg' :: later))) = some l) :
    .marked msg.id ∈ between := by
  obtain ⟨l₁, l₂, -, hstep, hlater⟩ := run_split (e := .returned msg) hrun
  by_contra hunmarked
  cases l₁ with
  | unborn => exact nomatch hstep
  | ended => exact nomatch hstep
  | live m =>
    rw [Life.step] at hstep
    split at hstep
    · obtain rfl := Option.some.inj hstep
      -- what is out is not returned before it is marked
      have hout : m.delivering.status ≠ .pending := nofun
      have hsplit : between ++ .returned msg' :: later = (between ++ [.returned msg']) ++ later := by
        rw [List.append_assoc, List.singleton_append]
      have hword : run Life.step (.live m.delivering) (about msg.id (between ++ .returned msg' :: later)) = some l :=
        hlater
      rw [hsplit, about_append, run_append] at hword
      obtain ⟨l₃, hbetween, -⟩ := Option.bind_eq_some_iff.mp hword
      have hnone := Life.run_out hout hbetween fun id hmem => by
        obtain ⟨hmem, hmarked⟩ := mem_about.mp hmem
        have hmarked : id = msg.id := hmarked
        rcases List.mem_append.mp hmem with hmem | hmem
        · exact hunmarked (hmarked ▸ hmem)
        · cases List.mem_singleton.mp hmem
      rw [about_append, about_singleton_self (e := .returned msg') hid, List.countP_append] at hnone
      exact absurd hnone (Nat.succ_ne_zero _)
    · exact nomatch hstep

/-- What was cancelled is not returned any more. -/
theorem returns_of_cancelled {before later : List SchedulerEvent} {id : String} {l : Life}
    (hrun : run Life.step .unborn (about id (before ++ .cancelled id :: later)) = some l) : returns id later = 0 := by
  obtain ⟨l₁, l₂, -, hstep, hlater⟩ := run_split (e := .cancelled id) hrun
  cases l₁ with
  | live m =>
    obtain rfl := Option.some.inj hstep
    exact (Life.run_ended hlater).2
  | unborn => exact nomatch hstep
  | ended => exact nomatch hstep

/-- **Whoever follows a life is disciplined.** -/
theorem disciplined_of_lives {events : List SchedulerEvent} (honce : Once events)
    (hlives : ∀ id, ∃ l, run Life.step .unborn (about id events) = some l) : Disciplined events where
  marked := by
    intro before between later msg msg' heq hid
    obtain ⟨l, hrun⟩ := hlives msg.id
    rw [heq] at hrun
    exact marked_between hid.symm hrun
  single := by
    intro msg hmem hrule
    obtain ⟨l, hrun⟩ := hlives msg.id
    refine Nat.le_trans (returns_le_left honce hmem hrun (Or.inl hrule)) ?_
    rw [Life.left, if_pos hrule]
    split <;> omega
  atMost := by
    intro msg hmem hrule hmax
    obtain ⟨l, hrun⟩ := hlives msg.id
    have hzero : msg.deliveryCount.toNat = 0 := by
      rw [(honce.fresh msg (mem_accepted.mpr hmem)).2]
      rfl
    have hbounded : msg.deliveryCount.toNat < msg.maxDeliveries.toNat := by
      rw [hzero]
      exact hmax
    refine Nat.le_trans (returns_le_left honce hmem hrun (Or.inr hbounded)) ?_
    rw [Life.left, if_neg hrule]
    omega
  cancelled := by
    intro before later id heq
    obtain ⟨l, hrun⟩ := hlives id
    rw [heq] at hrun
    exact returns_of_cancelled hrun

/-! ## Single calls -/

namespace Scheduler

/-- What is returned was Pending, and its time has come. -/
theorem due_of_returned {self : Scheduler} {call : SchedulerCall} {msg : ScheduledMessage}
    (h : .returned msg ∈ (self.step call).1) : ∃ order now limit, call = .getDue order now limit ∧
      ∃ entry ∈ self.queue, entry.status = .pending ∧ entry.scheduledAt ≤ now ∧ msg = entry.delivering := by
  cases call with
  | schedule scheduled =>
    rcases step_schedule scheduled self with ⟨-, hrefused⟩ | ⟨-, stats, haccepted⟩
    · rw [hrefused] at h
      exact absurd h List.not_mem_nil
    · rw [haccepted] at h
      cases List.mem_singleton.mp h
  | cancel order scheduleId =>
    rcases (step_cancel order scheduleId self).2 with ⟨hseen, -⟩ | ⟨hseen, -⟩
    · rw [hseen] at h
      cases List.mem_singleton.mp h
    · rw [hseen] at h
      exact absurd h List.not_mem_nil
  | markDelivered order scheduleId => cases List.mem_singleton.mp h
  | getDue order now limit =>
    obtain ⟨marks, hmessages, hstep, hmarks⟩ := step_getDue order now limit self
    rw [hstep] at h
    obtain ⟨m, hdue, heq⟩ := List.mem_map.mp h
    obtain rfl : m = msg := SchedulerEvent.returned.inj heq
    obtain ⟨p, hp, rfl⟩ := List.mem_map.mp hdue
    obtain ⟨hmem, htaken⟩ := List.mem_filter.mp hp
    obtain ⟨htime, hpending⟩ := hmarks p hmem htaken
    refine ⟨order, now, limit, rfl, p.1, ?_, hpending, htime, rfl⟩
    refine order.mem_arrange.mp ?_
    rw [← hmessages]
    exact List.mem_map_of_mem hmem

/-- **A call leaves the others alone.** -/
theorem queued_perm (self : Scheduler) {call : SchedulerCall} {id : String} (hnamed : call.named ≠ some id)
    (hreturned : ∀ msg, .returned msg ∈ (self.step call).1 → msg.id ≠ id) :
    ((self.step call).2.queued id).Perm (self.queued id) := by
  cases call with
  | schedule msg =>
    have hid : msg.id ≠ id := fun heq => hnamed (congrArg some heq)
    rcases step_schedule msg self with ⟨-, hrefused⟩ | ⟨-, stats, haccepted⟩
    · rw [hrefused]
    · rw [haccepted]
      exact List.Perm.of_eq (queued_append_ne self.queue hid)
  | cancel order scheduleId =>
    have hid : scheduleId ≠ id := fun heq => hnamed (congrArg some heq)
    rw [queued, (step_cancel order scheduleId self).1, List.filter_filter]
    have hsame : ∀ msg ∈ order.arrange self.queue,
        (decide (msg.id = id) && decide (msg.id ≠ scheduleId)) = decide (msg.id = id) := by
      intro msg _
      by_cases hmsg : msg.id = id
      · simp [hmsg, Ne.symm hid]
      · simp [hmsg]
    rw [List.filter_congr hsame]
    exact (order.perm self.queue).filter _
  | getDue order now limit =>
    obtain ⟨marks, hmessages, hstep, hmarks⟩ := step_getDue order now limit self
    rw [hstep] at hreturned ⊢
    -- none of those with the id is taken
    have hleft : ∀ p ∈ marks.filter fun p => decide (p.1.id = id), taken p = p.1 := by
      intro p hp
      obtain ⟨hmem, hid⟩ := List.mem_filter.mp hp
      rw [taken, if_neg]
      intro htaken
      refine hreturned p.1.delivering ?_ (of_decide_eq_true hid)
      exact List.mem_map_of_mem (List.mem_map_of_mem (List.mem_filter.mpr ⟨hmem, htaken⟩))
    rw [queued, (filter_taken marks id).2, List.map_congr_left hleft]
    show ((marks.filter _).map Prod.fst).Perm _
    have hfst : (marks.filter fun p => decide (p.1.id = id)).map Prod.fst =
        (marks.map Prod.fst).filter fun msg => decide (msg.id = id) := by
      rw [List.filter_map]
      rfl
    rw [hfst, hmessages]
    exact (order.perm self.queue).filter _
  | markDelivered order scheduleId =>
    have hid : scheduleId ≠ id := fun heq => hnamed (congrArg some heq)
    have hqueue : (self.step (.markDelivered order scheduleId)).2.queued id =
        ((order.arrange self.queue).filter fun msg => decide (msg.id = id)).filterMap (kept scheduleId) := by
      rw [queued, step_markDelivered, filter_id_kept]
    have hkept : ∀ msg ∈ (order.arrange self.queue).filter fun msg => decide (msg.id = id),
        kept scheduleId msg = some msg := by
      intro msg hmem
      refine kept_of_ne fun heq => hid (heq.symm.trans ?_)
      exact of_decide_eq_true (List.mem_filter.mp hmem).2
    rw [hqueue, List.filterMap_congr hkept, List.filterMap_some]
    exact (order.perm self.queue).filter _

/-- What is followed has one entry in the queue, if any. -/
theorem Follows.length_queued_le {events : List SchedulerEvent} {self : Scheduler} (h : self.Follows events)
    (id : String) : (self.queued id).length ≤ 1 := by
  obtain ⟨l, -, hqueue⟩ := h id
  rw [hqueue]
  cases l <;> simp [Life.entries]

/-- **The delivery discipline**: whatever the calls are, in whatever order and at whatever times, as long as an id
    is scheduled once. -/
theorem delivery_discipline (config : SchedulerConfig) (calls : List SchedulerCall)
    (honce : Once (record config calls)) :
    Disciplined (record config calls) ∧
      ∀ before call later, calls = before ++ call :: later → Sound (reached config before) call := by
  have hfollows := follows_run honce
  refine ⟨disciplined_of_lives honce fun id => ?_, fun before call later heq => ?_⟩
  · obtain ⟨l, hrun, -⟩ := hfollows id
    exact ⟨l, hrun⟩
  · have hbefore : Once (record config before) := by
      rw [heq, record_append] at honce
      exact honce.left
    have hcall : Once (record config (before ++ [call])) := by
      rw [heq, ← List.singleton_append, ← List.append_assoc, record_append] at honce
      exact honce.left
    refine ⟨fun msg hmem => due_of_returned hmem, fun id => ⟨?_, ?_⟩, fun id => queued_perm _⟩
    · exact (follows_run hbefore).length_queued_le id
    · rw [← reached_append]
      exact (follows_run hcall).length_queued_le id

/-- A message that is delivered every day, twice. -/
def twice : ScheduledMessage where
  id := "sched-0"
  message := (StoredMessage.new ⟨0, 0⟩ 0 "+258841234567" "+258821234567" [] "test_sys" 1).1
  scheduledAt := 0
  recurrence := some ⟨.daily, 1, none⟩
  maxDeliveries := 2
  esmeId := "esme1"

/-- It goes out, is marked and goes out again; a second message is cancelled. -/
theorem delivery_discipline_of_twice :
    let calls : List SchedulerCall := [.schedule twice, .getDue .listed 5 10, .markDelivered .listed "sched-0",
      .schedule { twice with id := "sched-1", recurrence := none }, .getDue .listed 86400000000000 1,
      .cancel .listed "sched-1", .getDue .listed 86400000000000 10]
    Disciplined (record {} calls) ∧
      ∀ before call later, calls = before ++ call :: later → Sound (reached {} before) call :=
  delivery_discipline {} _ ⟨by decide, by decide⟩

end Scheduler

end Smppd.Store
