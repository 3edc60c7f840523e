/-
  The SCHEDULER RUNNER (`src/store/scheduler.rs`: `SchedulerHandle`, `SchedulerRunner::run`, `start`) among the
  clients of its scheduler.

  The runner takes up what is due in batches (`get_due`), hands one message after the other to the output channel
  and marks what was taken.  Meanwhile others submit, schedule and cancel: between any two of its steps anything
  may happen to the queue.  So a schedule is in two places, the queue and the hands of the runner, and `Course` is
  what can become of it: `follows_run` says that the two places always show one point of that course.

  `send` waits for room in the output channel, which is the environment's to decide, as is whether the receiver
  is still there.  The wall clock (`now`) and the timer's clock (`elapsed`) are two clocks.
-/
import Smppd.Lib.Record
import Smppd.Store.Delivery

set_option linter.unusedVariables false

namespace Smppd.Store

open Table Machine Record

/-! ## The runner -/

/-- The room in the channel of `start`. -/
def channelCapacity : Nat := 10000

/-- What only the runner reads of the scheduler's configuration. -/
structure RunnerConfig where
  /-- Check interval in seconds. -/
  checkIntervalSecs : UInt64 := 1
  /-- Max messages to process per check. -/
  batchSize : Nat := 100

/-- `check_interval` of `run`. -/
def RunnerConfig.checkInterval (self : RunnerConfig) : Duration := fromSecs self.checkIntervalSecs.toNat

/-- Where the runner is in its loop. -/
inductive RunnerTask where
  /-- In the `select!`, with a timer that was made then. -/
  | selecting (since : Duration)
  /-- In `output.send` with the message of a schedule, and what else is due. -/
  | sending (msg : ScheduledMessage) (due : List ScheduledMessage)
  /-- It was taken, and is about to be marked. -/
  | marking (msg : ScheduledMessage) (due : List ScheduledMessage)

namespace RunnerTask

/-- The `for` loop goes on; after the last one the `select!` is entered again. -/
def loop (elapsed : Duration) : List ScheduledMessage → RunnerTask
  | [] => .selecting elapsed
  | msg :: due => .sending msg due

/-- What the runner has and has not sent. -/
def unsent : RunnerTask → List ScheduledMessage
  | .selecting _ => []
  | .sending msg due => msg :: due
  | .marking _ due => due

/-- What it has sent and not marked. -/
def unmarked : RunnerTask → List ScheduledMessage
  | .selecting _ | .sending _ _ => []
  | .marking msg _ => [msg]

@[simp] theorem unsent_loop (elapsed : Duration) (due : List ScheduledMessage) : (loop elapsed due).unsent = due := by
  cases due <;> rfl

@[simp] theorem unmarked_loop (elapsed : Duration) (due : List ScheduledMessage) : (loop elapsed due).unmarked = [] := by
  cases due <;> rfl

end RunnerTask

/-- The runner, its scheduler and the channel it receives from. -/
structure SchedulerRunner where
  scheduler : Scheduler
  config : RunnerConfig
  rx : List ScheduledMessage := []
  task : RunnerTask := .selecting 0
  /-- What the timer's clock shows. -/
  elapsed : Duration := 0

/-- What happens next, with what the environment decides. -/
inductive RunnerStep where
  /-- Time passes. -/
  | elapse (d : Duration)
  /-- `SchedulerHandle::submit`. -/
  | submit (msg : ScheduledMessage)
  /-- Somebody calls the scheduler itself. -/
  | schedule (msg : ScheduledMessage)
  | cancel (order : IterOrder ScheduledMessage) (scheduleId : String)
  /-- The first branch of the `select!`. -/
  | receive
  /-- The second one. -/
  | check (order : IterOrder ScheduledMessage) (now : SystemTime)
  /-- `output.send` returns. -/
  | send (isOk : Bool)
  | mark (order : IterOrder ScheduledMessage)

/-- What is seen of the runner and of its scheduler. -/
inductive RunnerEvent where
  | call (e : SchedulerEvent)
  | submitted (msg : ScheduledMessage)
  | received (msg : ScheduledMessage)
  /-- A batch was taken up. -/
  | checked (now : SystemTime)
  | sent (msg : ScheduledMessage)
  /-- "failed to deliver scheduled message". -/
  | failed (msg : ScheduledMessage)

namespace SchedulerRunner

/-- As `start` makes it. -/
def new (config : SchedulerConfig) (runner : RunnerConfig) : SchedulerRunner := ⟨.new config, runner, [], .selecting 0, 0⟩

/-- A call on the scheduler. -/
def call (self : SchedulerRunner) (call : SchedulerCall) : List RunnerEvent × SchedulerRunner :=
  ((self.scheduler.step call).1.map .call, { self with scheduler := (self.scheduler.step call).2 })

/-- The next step, if it can be taken. -/
def step (self : SchedulerRunner) : RunnerStep → Option (List RunnerEvent × SchedulerRunner)
  | .elapse d => some ([], { self with elapsed := self.elapsed + d })
  | .submit msg =>
    if self.rx.length < channelCapacity then some ([.submitted msg], { self with rx := self.rx ++ [msg] }) else none
  | .schedule msg => some (self.call (.schedule msg))
  | .cancel order scheduleId => some (self.call (.cancel order scheduleId))
  | .receive =>
    match self.task, self.rx with
    | .selecting _, msg :: rx =>
      -- whatever the answer is, it is only logged
      let (events, self) := self.call (.schedule msg)
      some (.received msg :: events, { self with rx := rx, task := .selecting self.elapsed })
    | _, _ => none
  | .check order now =>
    match self.task with
    | .selecting since =>
      if since + self.config.checkInterval ≤ self.elapsed then
        let due := (self.scheduler.getDue order now self.config.batchSize).1
        let (events, self) := self.call (.getDue order now self.config.batchSize)
        some (.checked now :: events, { self with task := .loop self.elapsed due })
      else none
    | _ => none
  | .send isOk =>
    match self.task with
    | .sending msg due =>
      if isOk then some ([.sent msg], { self with task := .marking msg due })
      else some ([.failed msg], { self with task := .loop self.elapsed due })
    | _ => none
  | .mark order =>
    match self.task with
    | .marking msg due =>
      let (events, self) := self.call (.markDelivered order msg.id)
      some (events, { self with task := .loop self.elapsed due })
    | _ => none

/-- What a step can be. -/
inductive Moves (self : SchedulerRunner) : List RunnerEvent → SchedulerRunner → Prop
  | elapse (d : Duration) : Moves self [] { self with elapsed := self.elapsed + d }
  | submit (msg : ScheduledMessage) : Moves self [.submitted msg] { self with rx := self.rx ++ [msg] }
  | schedule (msg : ScheduledMessage) : Moves self (self.call (.schedule msg)).1 (self.call (.schedule msg)).2
  | cancel (order : IterOrder ScheduledMessage) (scheduleId : String) :
      Moves self (self.call (.cancel order scheduleId)).1 (self.call (.cancel order scheduleId)).2
  | receive {since : Duration} {msg : ScheduledMessage} {rx : List ScheduledMessage}
      (htask : self.task = .selecting since) (hrx : self.rx = msg :: rx) :
      Moves self (.received msg :: (self.call (.schedule msg)).1)
        { (self.call (.schedule msg)).2 with rx := rx, task := .selecting self.elapsed }
  | check (order : IterOrder ScheduledMessage) (now : SystemTime) {since : Duration}
      (htask : self.task = .selecting since) (htimer : since + self.config.checkInterval ≤ self.elapsed) :
      Moves self (.checked now :: (self.call (.getDue order now self.config.batchSize)).1)
        { (self.call (.getDue order now self.config.batchSize)).2 with
          task := .loop self.elapsed (self.scheduler.getDue order now self.config.batchSize).1 }
  | sent {msg : ScheduledMessage} {due : List ScheduledMessage} (htask : self.task = .sending msg due) :
      Moves self [.sent msg] { self with task := .marking msg due }
  | failed {msg : ScheduledMessage} {due : List ScheduledMessage} (htask : self.task = .sending msg due) :
      Moves self [.failed msg] { self with task := .loop self.elapsed due }
  | mark (order : IterOrder ScheduledMessage) {msg : ScheduledMessage} {due : List ScheduledMessage}
      (htask : self.task = .marking msg due) :
      Moves self (self.call (.markDelivered order msg.id)).1
        { (self.call (.markDelivered order msg.id)).2 with task := .loop self.elapsed due }

theorem moves_of_step {self next : SchedulerRunner} {label : RunnerStep} {seen : List RunnerEvent}
    (hstep : self.step label = some (seen, next)) : self.Moves seen next := by
  cases label with
  | elapse d =>
    obtain ⟨rfl, rfl⟩ := Prod.mk.inj (Option.some.inj hstep)
    exact .elapse d
  | submit msg =>
    obtain ⟨-, hnext⟩ := Option.ite_none_right_eq_some.mp hstep
    obtain ⟨rfl, rfl⟩ := Prod.mk.inj (Option.some.inj hnext)
    exact .submit msg
  | schedule msg =>
    obtain ⟨rfl, rfl⟩ := Prod.mk.inj (Option.some.inj hstep)
    exact .schedule msg
  | cancel order scheduleId =>
    obtain ⟨rfl, rfl⟩ := Prod.mk.inj (Option.some.inj hstep)
    exact .cancel order scheduleId
  | receive =>
    simp only [step] at hstep
    split at hstep
    · next since msg rx htask hrx =>
      obtain ⟨rfl, rfl⟩ := Prod.mk.inj (Option.some.inj hstep)
      exact .receive htask hrx
    · exact nomatch hstep
  | check order now =>
    simp only [step] at hstep
    split at hstep
    · next since htask =>
      obtain ⟨htimer, hnext⟩ := Option.ite_none_right_eq_some.mp hstep
      obtain ⟨rfl, rfl⟩ := Prod.mk.inj (Option.some.inj hnext)
      exact .check order now htask htimer
    · exact nomatch hstep
  | send isOk =>
    simp only [step] at hstep
    split at hstep
    · next msg due htask =>
      cases isOk with
      | true =>
        obtain ⟨rfl, rfl⟩ := Prod.mk.inj (Option.some.inj hstep)
        exact .sent htask
      | false =>
        obtain ⟨rfl, rfl⟩ := Prod.mk.inj (Option.some.inj hstep)
        exact .failed htask
    · exact nomatch hstep
  | mark order =>
    simp only [step] at hstep
    split at hstep
    · next msg due htask =>
      obtain ⟨rfl, rfl⟩ := Prod.mk.inj (Option.some.inj hstep)
      exact .mark order htask
    · exact nomatch hstep

end SchedulerRunner

namespace RunnerEvent

/-- The schedule that an event is about. -/
def topic : RunnerEvent → Option String
  | .call e => some e.id
  | .submitted _ | .received _ | .checked _ => none
  | .sent msg | .failed msg => some msg.id

/-- What it says of the scheduler. -/
def ofScheduler : RunnerEvent → Option SchedulerEvent
  | .call e => some e
  | _ => none

/-- A message has left the hands of the runner. -/
def isGiven : RunnerEvent → Bool
  | .sent _ | .failed _ => true
  | _ => false

/-- What was submitted, and what was received. -/
def submission : RunnerEvent → Option ScheduledMessage
  | .submitted msg => some msg
  | _ => none

def reception : RunnerEvent → Option ScheduledMessage
  | .received msg => some msg
  | _ => none

end RunnerEvent

open RunnerEvent

/-- The calls on the scheduler that a record tells of. -/
def scheduling (events : List RunnerEvent) : List SchedulerEvent := events.filterMap ofScheduler

/-- What a record says about one schedule. -/
def courseOf (id : String) (events : List RunnerEvent) : List RunnerEvent := concerning topic id events

theorem courseOf_cons_self {id : String} {e : RunnerEvent} (h : e.topic = some id) (events : List RunnerEvent) :
    courseOf id (e :: events) = e :: courseOf id events := concerning_cons_self h events

theorem courseOf_cons_ne {id : String} {e : RunnerEvent} (h : e.topic ≠ some id) (events : List RunnerEvent) :
    courseOf id (e :: events) = courseOf id events := concerning_cons_ne h events

theorem courseOf_append (id : String) (events more : List RunnerEvent) :
    courseOf id (events ++ more) = courseOf id events ++ courseOf id more := concerning_append events more

/-- Those of some schedules that have an id. -/
def withId (id : String) (messages : List ScheduledMessage) : List ScheduledMessage :=
  messages.filter fun msg => msg.id = id

theorem withId_cons_self {id : String} {msg : ScheduledMessage} (h : msg.id = id) (messages : List ScheduledMessage) :
    withId id (msg :: messages) = msg :: withId id messages := List.filter_cons_of_pos (decide_eq_true h)

theorem withId_cons_ne {id : String} {msg : ScheduledMessage} (h : msg.id ≠ id) (messages : List ScheduledMessage) :
    withId id (msg :: messages) = withId id messages := List.filter_cons_of_neg fun hid => h (of_decide_eq_true hid)

/-- How often the message of a schedule was given to the output, which took it or not. -/
def givens (id : String) (events : List RunnerEvent) : Nat := (courseOf id events).countP isGiven

/-! ## The course of a schedule -/

/-- Where a schedule is. -/
inductive Course where
  /-- It was not accepted. -/
  | unborn
  /-- In the queue, until its time has come. -/
  | waiting (msg : ScheduledMessage)
  /-- With the runner, and not sent; in the queue as well, if it was not cancelled. -/
  | held (msg : ScheduledMessage) (queued : Bool)
  /-- With the runner, sent and not marked. -/
  | sent (msg : ScheduledMessage) (queued : Bool)
  /-- The output did not take it: in the queue, and with nobody. -/
  | stuck (msg : ScheduledMessage)
  | ended

namespace Course

/-- What an event makes of it; `none` when it cannot be. -/
def step : Course → RunnerEvent → Option Course
  | .unborn, .call (.scheduled msg) => some (.waiting msg)
  | .waiting msg, .call (.returned _) => some (.held msg.delivering true)
  | .waiting _, .call (.cancelled _) => some .ended
  | .held msg queued, .sent _ => some (.sent msg queued)
  | .held msg true, .failed _ => some (.stuck msg)
  | .held _ false, .failed _ => some .ended
  | .held msg true, .call (.cancelled _) => some (.held msg false)
  | .sent msg true, .call (.cancelled _) => some (.sent msg false)
  | .sent msg true, .call (.marked _) => some (if msg.repeatsAfter then .waiting msg.markDelivered else .ended)
  | .sent _ false, .call (.marked _) => some .ended
  | .stuck _, .call (.cancelled _) => some .ended
  | _, _ => none

/-- What the runner holds of it, not sent. -/
def unsent : Course → List ScheduledMessage
  | .held msg _ => [msg]
  | _ => []

/-- What the runner holds of it, not marked. -/
def unmarked : Course → List ScheduledMessage
  | .sent msg _ => [msg]
  | _ => []

/-- What the scheduler knows of it. -/
def life : Course → Life
  | .unborn => .unborn
  | .waiting msg | .held msg true | .sent msg true | .stuck msg => .live msg
  | .held _ false | .sent _ false | .ended => .ended

end Course

/-! ## What stays the same -/

/-- A schedule, after some deliveries. -/
structure ScheduledMessage.Continues (accepted msg : ScheduledMessage) : Prop where
  id : msg.id = accepted.id
  message : msg.message = accepted.message
  recurrence : msg.recurrence = accepted.recurrence
  maxDeliveries : msg.maxDeliveries = accepted.maxDeliveries
  /-- Only what repeats gets another time. -/
  scheduledAt : accepted.recurrence = none → msg.scheduledAt = accepted.scheduledAt

namespace Course

/-- It is the course of what was accepted: Pending while it waits, Delivering once it was taken up. -/
def From (accepted : ScheduledMessage) : Course → Prop
  | .unborn => False
  | .waiting msg => msg.status = .pending ∧ accepted.Continues msg
  | .held msg _ | .sent msg _ | .stuck msg => msg.status = .delivering ∧ accepted.Continues msg
  | .ended => True

variable {accepted : ScheduledMessage} {c c' : Course} {e : RunnerEvent} {w : List RunnerEvent}

theorem continues_markDelivered {msg : ScheduledMessage} (h : accepted.Continues msg)
    (hrepeats : msg.repeatsAfter = true) : accepted.Continues msg.markDelivered := by
  obtain ⟨hrule, -⟩ := msg.repeatsAfter_iff.mp hrepeats
  have hfields : msg.markDelivered.recurrence = msg.recurrence ∧ msg.markDelivered.message = msg.message ∧
      msg.markDelivered.maxDeliveries = msg.maxDeliveries := by
    rw [msg.markDelivered_eq]
    exact ⟨rfl, rfl, rfl⟩
  obtain ⟨hrecurrence, hmessage, hmax⟩ := hfields
  refine ⟨msg.markDelivered_id.trans h.id, hmessage.trans h.message, hrecurrence.trans h.recurrence,
    hmax.trans h.maxDeliveries, fun hnone => ?_⟩
  exact absurd (h.recurrence.trans hnone) hrule

/-- **No step changes what is delivered.** -/
theorem From.step (h : c.From accepted) (hstep : c.step e = some c') : c'.From accepted := by
  unfold Course.step at hstep
  split at hstep <;> cases hstep
  · exact h.elim
  · exact ⟨rfl, ⟨h.2.id, h.2.message, h.2.recurrence, h.2.maxDeliveries, h.2.scheduledAt⟩⟩
  · trivial
  · exact h
  · exact h
  · trivial
  · exact h
  · exact h
  · rename_i msg id
    by_cases hrepeats : msg.repeatsAfter = true
    · rw [if_pos hrepeats]
      exact ⟨msg.markDelivered_pending.mpr hrepeats, continues_markDelivered h.2 hrepeats⟩
    · rw [if_neg hrepeats]
      trivial
  · trivial
  · trivial

/-- A course begins with what was accepted. -/
theorem step_unborn (h : Course.unborn.step e = some c) : ∃ accepted, e = .call (.scheduled accepted) ∧ c = .waiting accepted := by
  cases e with
  | call e =>
    cases e with
    | scheduled accepted => exact ⟨accepted, rfl, (Option.some.inj h).symm⟩
    | _ => exact nomatch h
  | _ => exact nomatch h

theorem run_unborn (h : run Course.step .unborn w = some c) :
    w = [] ∧ c = .unborn ∨
      ∃ accepted rest, w = .call (.scheduled accepted) :: rest ∧ run Course.step (.waiting accepted) rest = some c := by
  cases w with
  | nil => exact Or.inl ⟨rfl, (Option.some.inj h).symm⟩
  | cons e w =>
    obtain ⟨c₁, hstep, hrun⟩ := run_cons_eq_some.mp h
    obtain ⟨accepted, rfl, rfl⟩ := step_unborn hstep
    exact Or.inr ⟨accepted, w, rfl, hrun⟩

/-- Where it has got to. -/
theorem run_from (h : run Course.step (.waiting accepted) w = some c) (hpending : accepted.status = .pending) :
    c.From accepted := by
  have hstart : (Course.waiting accepted).From accepted := ⟨hpending, rfl, rfl, rfl, rfl, fun _ => rfl⟩
  exact run_inv (fun c e c' h hstep => From.step h hstep) hstart h

end Course

/-! ## The queue and the runner follow -/

namespace SchedulerRunner

/-- The queue and the runner show one point of a course. -/
structure At (runner : SchedulerRunner) (id : String) (c : Course) : Prop where
  queued : runner.scheduler.queued id = c.life.entries
  unsent : withId id runner.task.unsent = c.unsent
  unmarked : withId id runner.task.unmarked = c.unmarked

variable {self : SchedulerRunner} {id : String} {c : Course} {accepted : ScheduledMessage}

/-- What a call on the scheduler tells about a schedule. -/
theorem courseOf_call (id : String) (seen : List SchedulerEvent) :
    courseOf id (seen.map .call) = (about id seen).map .call := by
  rw [courseOf, concerning, List.filter_map, about]
  congr 1
  exact List.filter_congr fun e _ => decide_eq_decide.mpr Option.some_inj

/-- A call tells nothing about what it does not concern. -/
theorem queued_of_about_nil (h : self.scheduler.queued id = c.life.entries) {call : SchedulerCall}
    (hfresh : ∀ msg, .scheduled msg ∈ (self.scheduler.step call).1 → msg.id = id → c.life = .unborn)
    (hnone : about id (self.scheduler.step call).1 = []) :
    (self.scheduler.step call).2.queued id = c.life.entries := by
  obtain ⟨l, hrun, hqueue⟩ := Scheduler.follows_call h call hfresh
  rw [hnone] at hrun
  obtain rfl := Option.some.inj hrun
  exact hqueue

/-- **A schedule is accepted**, or is refused, or is another one. -/
theorem at_schedule (h : self.At id c) (msg : ScheduledMessage)
    (hfresh : .scheduled msg ∈ (self.scheduler.step (.schedule msg)).1 → msg.id = id → c = .unborn) :
    ∃ c', run Course.step c (courseOf id (self.call (.schedule msg)).1) = some c' ∧
      (self.call (.schedule msg)).2.At id c' := by
  have hfresh' : ∀ m, .scheduled m ∈ (self.scheduler.step (.schedule msg)).1 → m.id = id → c.life = .unborn := by
    intro m hm hid
    rcases Scheduler.step_schedule msg self.scheduler with ⟨-, hstep⟩ | ⟨-, stats, hstep⟩
    · rw [hstep] at hm
      exact absurd hm List.not_mem_nil
    · have hm' := hm
      rw [hstep] at hm'
      obtain rfl := SchedulerEvent.scheduled.inj (List.mem_singleton.mp hm')
      rw [hfresh hm hid]
      rfl
  obtain ⟨l, hrun, hqueue⟩ := Scheduler.follows_call h.queued (.schedule msg) hfresh'
  have hcourse : courseOf id (self.call (.schedule msg)).1 =
      (about id (self.scheduler.step (.schedule msg)).1).map .call := courseOf_call id _
  by_cases hnone : about id (self.scheduler.step (.schedule msg)).1 = []
  · rw [hcourse, hnone]
    exact ⟨c, rfl, queued_of_about_nil h.queued hfresh' hnone, h.unsent, h.unmarked⟩
  · rcases Scheduler.step_schedule msg self.scheduler with ⟨-, hstep⟩ | ⟨-, stats, hstep⟩
    · exact absurd (by rw [hstep]; rfl) hnone
    · have hid : msg.id = id := by
        by_contra hid
        exact hnone (by rw [hstep]; exact about_singleton_ne hid)
      have hone : about id (self.scheduler.step (.schedule msg)).1 = [.scheduled msg] := by
        rw [hstep]
        exact about_singleton_self hid
      obtain rfl := hfresh (by rw [hstep]; exact List.mem_singleton_self _) hid
      rw [hone] at hrun
      obtain rfl : Life.live msg = l := Option.some.inj hrun
      rw [hcourse, hone]
      exact ⟨.waiting msg, rfl, hqueue, h.unsent, h.unmarked⟩

/-- **A schedule is cancelled**, wherever it is in the queue; the runner keeps what it has. -/
theorem at_cancel (h : self.At id c) (order : IterOrder ScheduledMessage) (scheduleId : String) :
    ∃ c', run Course.step c (courseOf id (self.call (.cancel order scheduleId)).1) = some c' ∧
      (self.call (.cancel order scheduleId)).2.At id c' := by
  have hseen := (Scheduler.step_cancel order scheduleId self.scheduler).2
  have hfresh : ∀ m, .scheduled m ∈ (self.scheduler.step (.cancel order scheduleId)).1 → m.id = id → c.life = .unborn := by
    intro m hm
    rcases hseen with ⟨hstep, -⟩ | ⟨hstep, -⟩ <;> rw [hstep] at hm
    · exact nomatch List.mem_singleton.mp hm
    · exact absurd hm List.not_mem_nil
  obtain ⟨l, hrun, hqueue⟩ := Scheduler.follows_call h.queued (.cancel order scheduleId) hfresh
  have hcourse : courseOf id (self.call (.cancel order scheduleId)).1 =
      (about id (self.scheduler.step (.cancel order scheduleId)).1).map .call := courseOf_call id _
  by_cases hnone : about id (self.scheduler.step (.cancel order scheduleId)).1 = []
  · rw [hcourse, hnone]
    exact ⟨c, rfl, queued_of_about_nil h.queued hfresh hnone, h.unsent, h.unmarked⟩
  · have hone : about id (self.scheduler.step (.cancel order scheduleId)).1 = [.cancelled scheduleId] := by
      rcases hseen with ⟨hstep, -⟩ | ⟨hstep, -⟩
      · by_cases hid : scheduleId = id
        · rw [hstep]
          exact about_singleton_self hid
        · exact absurd (by rw [hstep]; exact about_singleton_ne hid) hnone
      · exact absurd (by rw [hstep]; rfl) hnone
    rw [hone] at hrun
    rw [hcourse, hone]
    cases c with
    | unborn | ended => exact nomatch hrun
    | waiting msg | stuck msg =>
      obtain rfl : Life.ended = l := Option.some.inj hrun
      exact ⟨.ended, rfl, hqueue, h.unsent, h.unmarked⟩
    | held msg queued =>
      cases queued with
      | false => exact nomatch hrun
      | true =>
        obtain rfl : Life.ended = l := Option.some.inj hrun
        exact ⟨.held msg false, rfl, hqueue, h.unsent, h.unmarked⟩
    | sent msg queued =>
      cases queued with
      | false => exact nomatch hrun
      | true =>
        obtain rfl : Life.ended = l := Option.some.inj hrun
        exact ⟨.sent msg false, rfl, hqueue, h.unsent, h.unmarked⟩

/-- What `get_due` gives with an id is the Pending schedule that the queue has with it, or nothing. -/
theorem due_of_entries (self : SchedulerRunner) (order : IterOrder ScheduledMessage) (now : SystemTime) (limit : Nat) {l : Life}
    (h : self.scheduler.queued id = l.entries) :
    withId id (self.scheduler.getDue order now limit).1 = [] ∨
      ∃ msg, l = .live msg ∧ msg.status = .pending ∧ msg.scheduledAt ≤ now ∧
        withId id (self.scheduler.getDue order now limit).1 = [msg.delivering] := by
  obtain ⟨marks, hmessages, hloop, hmarks⟩ :=
    Scheduler.dueLoop_spec now limit 0 (order.arrange self.scheduler.queue)
  have hdue : (self.scheduler.getDue order now limit).1 = (marks.filter fun p => p.2).map fun p => p.1.delivering := by
    rw [Scheduler.getDue, hloop]
  have hentries := Scheduler.filter_arrange order h
  rw [← hmessages, List.filter_map] at hentries
  rw [withId, hdue, (Scheduler.filter_taken marks id).1]
  cases l with
  | live msg =>
    obtain ⟨⟨m, mark⟩, hone, rfl⟩ := List.map_eq_singleton_iff.mp hentries
    have hone : (marks.filter fun p => decide (p.1.id = id)) = [(m, mark)] := hone
    rw [hone]
    cases mark with
    | false => exact Or.inl rfl
    | true =>
      have hmem : (m, true) ∈ marks := List.mem_of_mem_filter (hone ▸ List.mem_singleton_self _)
      obtain ⟨htime, hpending⟩ := hmarks _ hmem rfl
      exact Or.inr ⟨m, rfl, hpending, htime, rfl⟩
  | unborn | ended =>
    have hnone : (marks.filter fun p => decide (p.1.id = id)) = [] := List.map_eq_nil_iff.mp hentries
    rw [hnone]
    exact Or.inl rfl

/-- The events about a schedule of a batch that is taken up. -/
theorem courseOf_check (order : IterOrder ScheduledMessage) (now : SystemTime) (limit : Nat) :
    courseOf id (.checked now :: (self.call (.getDue order now limit)).1) =
      ((withId id (self.scheduler.getDue order now limit).1).map .returned).map .call := by
  have hskip : courseOf id (.checked now :: (self.call (.getDue order now limit)).1) =
      courseOf id (self.call (.getDue order now limit)).1 := courseOf_cons_ne (e := .checked now) nofun _
  rw [hskip, withId, ← about_returned]
  exact courseOf_call id _

/-- **A batch is taken up**: the runner has nothing in its hands, and gets what was waiting. -/
theorem at_check (h : self.At id c) (hfrom : c = .unborn ∨ ∃ accepted, c.From accepted) {since : Duration}
    (htask : self.task = .selecting since) (order : IterOrder ScheduledMessage) (now : SystemTime) (limit : Nat) :
    ∃ c', run Course.step c (courseOf id (.checked now :: (self.call (.getDue order now limit)).1)) = some c' ∧
      At { (self.call (.getDue order now limit)).2 with
        task := .loop self.elapsed (self.scheduler.getDue order now limit).1 } id c' := by
  have hunsent : [] = c.unsent := h.unsent ▸ (by rw [htask]; rfl)
  have hunmarked : [] = c.unmarked := h.unmarked ▸ (by rw [htask]; rfl)
  have hscheduled : ∀ m, .scheduled m ∉ (self.scheduler.step (.getDue order now limit)).1 := by
    intro m hm
    obtain ⟨m', -, heq⟩ := List.mem_map.mp hm
    exact nomatch heq
  have habout : about id (self.scheduler.step (.getDue order now limit)).1 =
      (withId id (self.scheduler.getDue order now limit).1).map .returned :=
    about_returned id _
  obtain ⟨l, hrun, hqueue⟩ :=
    Scheduler.follows_call h.queued (.getDue order now limit) fun m hm => absurd hm (hscheduled m)
  rw [habout] at hrun
  rw [courseOf_check]
  rcases due_of_entries self order now limit h.queued with hdue | ⟨msg, hlife, hpending, -, hdue⟩
  · rw [hdue] at hrun ⊢
    obtain rfl := Option.some.inj hrun
    refine ⟨c, rfl, hqueue, ?_, ?_⟩
    · rw [RunnerTask.unsent_loop, hdue, hunsent]
    · rw [RunnerTask.unmarked_loop, ← hunmarked]
      rfl
  · rw [hdue] at hrun ⊢
    cases c with
    | unborn | ended => exact nomatch hlife
    | held msg queued => exact nomatch hunsent
    | sent msg queued => exact nomatch hunmarked
    | stuck m =>
      -- what is stuck is not Pending
      obtain ⟨accepted, hdelivering, -⟩ := hfrom.resolve_left nofun
      obtain rfl := Life.live.inj hlife
      rw [hdelivering] at hpending
      exact nomatch hpending
    | waiting m =>
      obtain rfl := Life.live.inj hlife
      have hstep : run Life.step (.live m) [.returned m.delivering] = some (.live m.delivering) := by
        show (Life.step (.live m) (.returned m.delivering)).bind _ = _
        rw [Life.step, if_pos hpending]
        rfl
      obtain rfl : Life.live m.delivering = l := Option.some.inj (hstep.symm.trans hrun)
      refine ⟨.held m.delivering true, rfl, hqueue, ?_, ?_⟩
      · rw [RunnerTask.unsent_loop, hdue]
        rfl
      · rw [RunnerTask.unmarked_loop]
        rfl

/-- **A message is given to the output**, which takes it or does not. -/
theorem at_send (h : self.At id c) {msg : ScheduledMessage} {due : List ScheduledMessage}
    (htask : self.task = .sending msg due) :
    (∃ c', run Course.step c (courseOf id [.sent msg]) = some c' ∧ At { self with task := .marking msg due } id c') ∧
      ∃ c', run Course.step c (courseOf id [.failed msg]) = some c' ∧
        At { self with task := .loop self.elapsed due } id c' := by
  have hunsent : withId id (msg :: due) = c.unsent := h.unsent ▸ (by rw [htask]; rfl)
  have hunmarked : [] = c.unmarked := h.unmarked ▸ (by rw [htask]; rfl)
  by_cases hid : msg.id = id
  · rw [withId_cons_self hid] at hunsent
    cases c with
    | held m queued =>
      obtain ⟨rfl, hrest⟩ := List.cons.inj hunsent
      have hsent : courseOf id [.sent msg] = [.sent msg] :=
        courseOf_cons_self (e := .sent msg) (congrArg some hid) []
      have hfailed : courseOf id [.failed msg] = [.failed msg] :=
        courseOf_cons_self (e := .failed msg) (congrArg some hid) []
      rw [hsent, hfailed]
      refine ⟨⟨.sent msg queued, rfl, ?_, hrest, ?_⟩, ?_⟩
      · have hqueued := h.queued
        cases queued <;> exact hqueued
      · exact withId_cons_self hid []
      · cases queued with
        | true => exact ⟨.stuck msg, rfl, h.queued, by rw [RunnerTask.unsent_loop]; exact hrest, by rw [RunnerTask.unmarked_loop]; rfl⟩
        | false => exact ⟨.ended, rfl, h.queued, by rw [RunnerTask.unsent_loop]; exact hrest, by rw [RunnerTask.unmarked_loop]; rfl⟩
    | _ => exact nomatch hunsent
  · rw [withId_cons_ne hid] at hunsent
    have hsent : courseOf id [.sent msg] = [] :=
      courseOf_cons_ne (e := .sent msg) (fun ht => hid (Option.some.inj ht)) []
    have hfailed : courseOf id [.failed msg] = [] :=
      courseOf_cons_ne (e := .failed msg) (fun ht => hid (Option.some.inj ht)) []
    rw [hsent, hfailed]
    refine ⟨⟨c, rfl, h.queued, hunsent, ?_⟩, c, rfl, h.queued, ?_, ?_⟩
    · rw [← hunmarked]
      exact withId_cons_ne hid []
    · rw [RunnerTask.unsent_loop]
      exact hunsent
    · rw [RunnerTask.unmarked_loop, ← hunmarked]
      rfl

/-- **What was sent is marked**: it waits for its next time, or has ended. -/
theorem at_mark (h : self.At id c) (hfrom : c = .unborn ∨ ∃ accepted, c.From accepted) {msg : ScheduledMessage}
    {due : List ScheduledMessage} (htask : self.task = .marking msg due) (order : IterOrder ScheduledMessage) :
    ∃ c', run Course.step c (courseOf id (self.call (.markDelivered order msg.id)).1) = some c' ∧
      At { (self.call (.markDelivered order msg.id)).2 with task := .loop self.elapsed due } id c' := by
  have hunsent : withId id due = c.unsent := h.unsent ▸ (by rw [htask]; rfl)
  have hunmarked : withId id [msg] = c.unmarked := h.unmarked ▸ (by rw [htask]; rfl)
  have hcourse : courseOf id (self.call (.markDelivered order msg.id)).1 =
      (about id [SchedulerEvent.marked msg.id]).map .call := courseOf_call id _
  have hscheduled : ∀ m, .scheduled m ∈ (self.scheduler.step (.markDelivered order msg.id)).1 → m.id = id →
      c.life = .unborn := fun m hm => nomatch List.mem_singleton.mp hm
  obtain ⟨l, hrun, hqueue⟩ := Scheduler.follows_call h.queued (.markDelivered order msg.id) hscheduled
  by_cases hid : msg.id = id
  · have hone : about id [SchedulerEvent.marked msg.id] = [.marked msg.id] := about_singleton_self hid
    have hrun : run Life.step c.life (about id [SchedulerEvent.marked msg.id]) = some l := hrun
    rw [hone] at hrun
    rw [hcourse, hone]
    rw [withId_cons_self hid] at hunmarked
    cases c with
    | sent m queued =>
      obtain ⟨rfl, -⟩ := List.cons.inj hunmarked
      cases queued with
      | false =>
        obtain rfl : Life.ended = l := Option.some.inj hrun
        refine ⟨.ended, rfl, hqueue, ?_, ?_⟩
        · rw [RunnerTask.unsent_loop]
          exact hunsent
        · rw [RunnerTask.unmarked_loop]
          rfl
      | true =>
        obtain ⟨accepted, hdelivering, -⟩ := hfrom.resolve_left nofun
        obtain rfl : Life.mark msg = l := Option.some.inj hrun
        rw [Life.mark, if_pos hdelivering] at hqueue
        refine ⟨if msg.repeatsAfter then .waiting msg.markDelivered else .ended, rfl, ?_, ?_, ?_⟩
        · cases hrepeats : msg.repeatsAfter <;> rw [hrepeats] at hqueue <;> exact hqueue
        · rw [RunnerTask.unsent_loop]
          cases msg.repeatsAfter <;> exact hunsent
        · rw [RunnerTask.unmarked_loop]
          cases msg.repeatsAfter <;> rfl
    | _ => exact absurd hunmarked (List.cons_ne_nil _ _)
  · have hnone : about id [SchedulerEvent.marked msg.id] = [] := about_singleton_ne hid
    rw [withId_cons_ne hid] at hunmarked
    rw [hcourse, hnone]
    refine ⟨c, rfl, queued_of_about_nil h.queued hscheduled hnone, ?_, ?_⟩
    · rw [RunnerTask.unsent_loop]
      exact hunsent
    · rw [RunnerTask.unmarked_loop]
      exact hunmarked

/-- The calls on the scheduler that a call tells of. -/
theorem scheduling_call (call : SchedulerCall) : scheduling (self.call call).1 = (self.scheduler.step call).1 := by
  show ((self.scheduler.step call).1.map .call).filterMap ofScheduler = _
  rw [List.filterMap_map]
  exact List.filterMap_some

theorem mem_scheduling_call {call : SchedulerCall} {e : SchedulerEvent} :
    e ∈ scheduling (self.call call).1 ↔ e ∈ (self.scheduler.step call).1 := by
  rw [scheduling_call]

/-- **The queue and the runner follow, step by step.** -/
theorem at_step (h : self.At id c) (hfrom : c = .unborn ∨ ∃ accepted, c.From accepted)
    {seen : List RunnerEvent} {next : SchedulerRunner} (hmoves : self.Moves seen next)
    (hfresh : ∀ msg, .scheduled msg ∈ scheduling seen → msg.id = id → c = .unborn) :
    ∃ c', run Course.step c (courseOf id seen) = some c' ∧ next.At id c' := by
  cases hmoves with
  | elapse d | submit msg => exact ⟨c, rfl, h.queued, h.unsent, h.unmarked⟩
  | schedule msg => exact at_schedule h msg fun hm => hfresh msg (mem_scheduling_call.mpr hm)
  | cancel order scheduleId => exact at_cancel h order scheduleId
  | @receive since msg rx htask hrx =>
    obtain ⟨c', hrun, hat⟩ := at_schedule h msg fun hm => hfresh msg (mem_scheduling_call.mpr hm)
    have hunsent : withId id (self.call (.schedule msg)).2.task.unsent = [] := by
      show withId id self.task.unsent = []
      rw [htask]
      rfl
    have hunmarked : withId id (self.call (.schedule msg)).2.task.unmarked = [] := by
      show withId id self.task.unmarked = []
      rw [htask]
      rfl
    exact ⟨c', hrun, hat.queued, hunsent.symm.trans hat.unsent, hunmarked.symm.trans hat.unmarked⟩
  | check order now htask htimer => exact at_check h hfrom htask order now self.config.batchSize
  | sent htask => exact (at_send h htask).1
  | failed htask => exact (at_send h htask).2
  | mark order htask => exact at_mark h hfrom htask order

/-! ## Whole runs -/

/-- The runner from its start, with the record of what is seen of it. -/
abbrev Runs (config : SchedulerConfig) (runner : RunnerConfig) (steps : List RunnerStep)
    (s : SchedulerRunner × List RunnerEvent) : Prop :=
  run (noted step) (new config runner, []) steps = some s

/-- The queue and the runner show, of every id, one point of the course that the record tells. -/
def Follows (s : SchedulerRunner × List RunnerEvent) : Prop :=
  ∀ id, ∃ c, run Course.step .unborn (courseOf id s.2) = some c ∧ s.1.At id c

theorem scheduling_append (events more : List RunnerEvent) :
    scheduling (events ++ more) = scheduling events ++ scheduling more := List.filterMap_append

theorem mem_scheduling {events : List RunnerEvent} {e : SchedulerEvent} : e ∈ scheduling events ↔ .call e ∈ events := by
  rw [scheduling, List.mem_filterMap]
  constructor
  · rintro ⟨e', hmem, heq⟩
    cases e' with
    | call e' =>
      obtain rfl := Option.some.inj heq
      exact hmem
    | _ => exact nomatch heq
  · exact fun hmem => ⟨.call e, hmem, rfl⟩

/-- Of what was accepted once, a course says whose it is. -/
theorem from_of_once {events : List RunnerEvent} (honce : Once (scheduling events))
    (hrun : run Course.step .unborn (courseOf id events) = some c) : c = .unborn ∨ ∃ accepted, c.From accepted := by
  rcases Course.run_unborn hrun with ⟨-, hunborn⟩ | ⟨accepted, rest, hword, hrest⟩
  · exact Or.inl hunborn
  · have hmem : .call (.scheduled accepted) ∈ courseOf id events := hword ▸ List.mem_cons_self
    have haccepted := mem_scheduling.mpr (mem_concerning.mp hmem).1
    exact Or.inr ⟨accepted, Course.run_from hrest (honce.fresh accepted (mem_accepted.mpr haccepted)).1⟩

/-- **The runner and its scheduler follow**, whoever does what in between, as long as no id is scheduled twice. -/
theorem follows_step {s s' : SchedulerRunner × List RunnerEvent} {label : RunnerStep} (h : Follows s)
    (hstep : noted step s label = some s') (honce : Once (scheduling s'.2)) : Follows s' := by
  obtain ⟨self, events⟩ := s
  obtain ⟨seen, next, hnext, rfl⟩ := noted_eq_some.mp hstep
  have honce : Once (scheduling events ++ scheduling seen) := scheduling_append events seen ▸ honce
  intro id
  obtain ⟨c, hword, hat⟩ := h id
  obtain ⟨c', hseen, hat'⟩ := at_step hat (from_of_once honce.left hword) (moves_of_step hnext) fun msg hmsg hid => by
    -- what is accepted now was not accepted before
    rcases Course.run_unborn hword with ⟨-, hunborn⟩ | ⟨accepted, rest, hcourse, -⟩
    · exact hunborn
    · obtain ⟨hmem, htopic⟩ := mem_concerning.mp (hcourse ▸ List.mem_cons_self)
      exact absurd ((Option.some.inj htopic).trans hid.symm) (honce.notMem (mem_scheduling.mpr hmem) hmsg)
  refine ⟨c', ?_, hat'⟩
  rw [courseOf_append, run_append, hword]
  exact hseen

theorem once_of_step {s s' : SchedulerRunner × List RunnerEvent} {label : RunnerStep}
    (hstep : noted step s label = some s') (honce : Once (scheduling s'.2)) : Once (scheduling s.2) := by
  obtain ⟨seen, next, -, rfl⟩ := noted_eq_some.mp hstep
  exact Once.left (scheduling_append s.2 seen ▸ honce)

variable {config : SchedulerConfig} {runner : RunnerConfig} {steps : List RunnerStep}
  {s : SchedulerRunner × List RunnerEvent}

theorem follows_start (config : SchedulerConfig) (runner : RunnerConfig) : Follows (new config runner, []) :=
  fun id => ⟨.unborn, rfl, rfl, rfl, rfl⟩

theorem follows_run (hrun : Runs config runner steps s) (honce : Once (scheduling s.2)) : Follows s := by
  have hstep : ∀ (s : SchedulerRunner × List RunnerEvent) label s', (Once (scheduling s.2) → Follows s) →
      noted step s label = some s' → Once (scheduling s'.2) → Follows s' :=
    fun s label s' ih hstep honce => follows_step (ih (once_of_step hstep honce)) hstep honce
  exact run_inv hstep (fun _ => follows_start config runner) hrun honce

end SchedulerRunner

end Smppd.Store
