/-
  What the scheduler runner DELIVERS (`src/store/scheduler.rs`), whoever submits, schedules and cancels meanwhile.

  `Runner` has shown that the queue and the runner follow the course of every schedule.  Here the courses are read:

  1. `delivers_run` — nothing goes out that was not accepted, nothing early, nothing altered, nothing too often;
     what the output did not take is never given to it again; and a cancel comes too late for one message at most.

  2. `conserved_run` — a schedule for one message that nobody cancels is waiting, or is with the runner, or was given
     to the output exactly once.

  3. `starved_run` — every turn of the loop makes a new timer.  As long as something is received within every
     interval, there is no check and nothing is ever taken up, however long it is overdue.
-/
import Smppd.Store.Runner

set_option linter.unusedVariables false

namespace Smppd.Store

open Table Machine Record RunnerEvent

namespace SchedulerRunner

variable {self : SchedulerRunner} {id : String} {c : Course} {accepted : ScheduledMessage} {config : SchedulerConfig}
  {runner : RunnerConfig} {steps : List RunnerStep} {s : SchedulerRunner × List RunnerEvent}

/-! ## What goes out -/

/-- The time of what the runner holds had come when it was taken up. -/
def Timely (s : SchedulerRunner × List RunnerEvent) : Prop :=
  ∀ msg ∈ s.1.task.unsent, ∃ now, .checked now ∈ s.2 ∧ msg.scheduledAt ≤ now

/-- What the runner holds after a step it held before, or it was due at the check that it has just made. -/
theorem unsent_step {seen : List RunnerEvent} {next : SchedulerRunner} (hmoves : self.Moves seen next)
    {msg : ScheduledMessage} (hmem : msg ∈ next.task.unsent) :
    msg ∈ self.task.unsent ∨ ∃ now, .checked now ∈ seen ∧ msg.scheduledAt ≤ now := by
  cases hmoves with
  | elapse d | submit m | schedule m | cancel order scheduleId => exact Or.inl hmem
  | receive htask hrx => exact absurd hmem List.not_mem_nil
  | check order now htask htimer =>
    rw [RunnerTask.unsent_loop] at hmem
    obtain ⟨marks, -, hloop, hmarks⟩ :=
      Scheduler.dueLoop_spec now self.config.batchSize 0 (order.arrange self.scheduler.queue)
    rw [Scheduler.getDue, hloop] at hmem
    obtain ⟨p, hp, rfl⟩ := List.mem_map.mp hmem
    obtain ⟨hp, htaken⟩ := List.mem_filter.mp hp
    exact Or.inr ⟨now, List.mem_cons_self, (hmarks p hp htaken).1⟩
  | sent htask =>
    rw [htask]
    exact Or.inl (List.mem_cons_of_mem _ hmem)
  | failed htask =>
    rw [RunnerTask.unsent_loop] at hmem
    rw [htask]
    exact Or.inl (List.mem_cons_of_mem _ hmem)
  | mark order htask =>
    rw [RunnerTask.unsent_loop] at hmem
    rw [htask]
    exact Or.inl hmem

theorem timely_step {s s' : SchedulerRunner × List RunnerEvent} {label : RunnerStep} (h : Timely s)
    (hstep : noted step s label = some s') : Timely s' := by
  obtain ⟨seen, next, hnext, rfl⟩ := noted_eq_some.mp hstep
  intro msg hmem
  rcases unsent_step (moves_of_step hnext) hmem with hold | ⟨now, hnow, htime⟩
  · obtain ⟨now, hnow, htime⟩ := h msg hold
    exact ⟨now, List.mem_append_left _ hnow, htime⟩
  · exact ⟨now, List.mem_append_right _ hnow, htime⟩

/-- The message is given to the output, which takes it or not. -/
def Gives (msg : ScheduledMessage) (e : RunnerEvent) : Prop := e = .sent msg ∨ e = .failed msg

theorem not_gives_call {e : SchedulerEvent} {msg : ScheduledMessage} : ¬ Gives msg (.call e) := by
  rintro (heq | heq)
  · cases heq
  · cases heq

/-- A call gives nothing. -/
theorem not_gives_of_mem_call {call : SchedulerCall} {e : RunnerEvent} (hmem : e ∈ (self.call call).1)
    (msg : ScheduledMessage) : ¬ Gives msg e := by
  obtain ⟨e', -, rfl⟩ := List.mem_map.mp hmem
  exact not_gives_call

/-- What is given is what the runner was about to send. -/
theorem gives_step {seen : List RunnerEvent} {next : SchedulerRunner} (hmoves : self.Moves seen next)
    {msg : ScheduledMessage} {e : RunnerEvent} (hmem : e ∈ seen) (hgives : Gives msg e) :
    msg ∈ self.task.unsent ∧ seen = [e] := by
  cases hmoves with
  | elapse d => exact absurd hmem List.not_mem_nil
  | submit m =>
    obtain rfl := List.mem_singleton.mp hmem
    rcases hgives with heq | heq <;> cases heq
  | schedule m => exact absurd hgives (not_gives_of_mem_call hmem msg)
  | cancel order scheduleId => exact absurd hgives (not_gives_of_mem_call hmem msg)
  | receive htask hrx =>
    rcases List.mem_cons.mp hmem with rfl | hcall
    · rcases hgives with heq | heq <;> cases heq
    · exact absurd hgives (not_gives_of_mem_call hcall msg)
  | check order now htask htimer =>
    rcases List.mem_cons.mp hmem with rfl | hcall
    · rcases hgives with heq | heq <;> cases heq
    · exact absurd hgives (not_gives_of_mem_call hcall msg)
  | sent htask | failed htask =>
    obtain rfl := List.mem_singleton.mp hmem
    rcases hgives with heq | heq <;> cases heq
    rw [htask]
    exact ⟨List.mem_cons_self, rfl⟩
  | mark order htask => exact absurd hgives (not_gives_of_mem_call hmem msg)

/-- A message that is given to the output was accepted as it is, and its time had come. -/
def Due (before : List RunnerEvent) (e : RunnerEvent) : Prop :=
  ∀ msg, Gives msg e → ∃ accepted now, .call (.scheduled accepted) ∈ before ∧ accepted.Continues msg ∧
    .checked now ∈ before ∧ msg.scheduledAt ≤ now

/-- What the runner holds was accepted, and is what was accepted. -/
theorem accepted_of_unsent {s : SchedulerRunner × List RunnerEvent} (h : Follows s) (honce : Once (scheduling s.2))
    {msg : ScheduledMessage} (hmem : msg ∈ s.1.task.unsent) :
    ∃ accepted, .call (.scheduled accepted) ∈ s.2 ∧ accepted.Continues msg := by
  obtain ⟨c, hword, hat⟩ := h msg.id
  have hheld : msg ∈ c.unsent := hat.unsent ▸ List.mem_filter.mpr ⟨hmem, decide_eq_true rfl⟩
  rcases Course.run_unborn hword with ⟨-, rfl⟩ | ⟨accepted, rest, hcourse, hrest⟩
  · exact absurd hheld List.not_mem_nil
  · obtain ⟨haccepted, -⟩ := mem_concerning.mp (hcourse ▸ List.mem_cons_self)
    have hfresh := honce.fresh accepted (mem_accepted.mpr (mem_scheduling.mpr haccepted))
    have hfrom := Course.run_from hrest hfresh.1
    cases c with
    | held m queued =>
      obtain rfl := List.mem_singleton.mp hheld
      exact ⟨accepted, haccepted, hfrom.2⟩
    | _ => exact absurd hheld List.not_mem_nil

theorem due_step {s s' : SchedulerRunner × List RunnerEvent} {label : RunnerStep} (h : Follows s) (htimely : Timely s)
    (hdue : Backed Due s.2) (hstep : noted step s label = some s') (honce : Once (scheduling s'.2)) :
    Backed Due s'.2 := by
  have honce' := once_of_step hstep honce
  obtain ⟨seen, next, hnext, rfl⟩ := noted_eq_some.mp hstep
  refine backed_append hdue ?_
  by_cases hgiven : ∃ e ∈ seen, ∃ msg, Gives msg e
  · obtain ⟨e, he, msg, hgives⟩ := hgiven
    obtain ⟨-, rfl⟩ := gives_step (moves_of_step hnext) he hgives
    refine backed_singleton fun m hm => ?_
    obtain ⟨hunsent, -⟩ := gives_step (moves_of_step hnext) he hm
    obtain ⟨accepted, haccepted, hcontinues⟩ := accepted_of_unsent h honce' hunsent
    obtain ⟨now, hnow, htime⟩ := htimely m hunsent
    rw [List.append_nil]
    exact ⟨accepted, now, haccepted, hcontinues, hnow, htime⟩
  · exact backed_of_forall fun e he before msg hgives => absurd ⟨e, he, msg, hgives⟩ hgiven

theorem due_run (hrun : Runs config runner steps s) (honce : Once (scheduling s.2)) : Backed Due s.2 := by
  have hstep : ∀ (s : SchedulerRunner × List RunnerEvent) label s',
      Timely s ∧ (Once (scheduling s.2) → Follows s ∧ Backed Due s.2) → noted step s label = some s' →
        Timely s' ∧ (Once (scheduling s'.2) → Follows s' ∧ Backed Due s'.2) := by
    rintro s label s' ⟨htimely, ih⟩ hstep
    refine ⟨timely_step htimely hstep, fun honce => ?_⟩
    obtain ⟨hfollows, hdue⟩ := ih (once_of_step hstep honce)
    exact ⟨follows_step hfollows hstep honce, due_step hfollows htimely hdue hstep honce⟩
  have hstart : Timely (new config runner, []) := fun msg hmem => absurd hmem List.not_mem_nil
  exact ((run_inv hstep ⟨hstart, fun _ => ⟨follows_start config runner, backed_nil⟩⟩ hrun).2 honce).2

end SchedulerRunner

/-! ## How often it goes out -/

namespace Course

/-- How many times the message may still be given to the output. -/
def left : Course → Nat
  | .waiting msg | .sent msg true => Life.left msg
  | .held msg true => Life.left msg + 1
  | .held _ false => 1
  | .unborn | .sent _ false | .stuck _ | .ended => 0

/-- Where that is bounded. -/
def Bounded : Course → Prop
  | .waiting msg | .held msg true | .sent msg true => Life.Bounded msg
  | _ => True

variable {accepted : ScheduledMessage} {c c' : Course} {e : RunnerEvent} {w : List RunnerEvent}

/-- Whatever is given uses up one. -/
theorem left_step (hfrom : c.From accepted) (hbounded : c.Bounded) (hstep : c.step e = some c') :
    c'.Bounded ∧ c'.left + (if e.isGiven then 1 else 0) ≤ c.left := by
  unfold Course.step at hstep
  split at hstep <;> cases hstep
  · exact hfrom.elim
  · exact ⟨hbounded, Nat.le_of_eq (Life.left_delivering hbounded hfrom.1).symm⟩
  · exact ⟨trivial, Nat.zero_le _⟩
  · rename_i msg queued m
    cases queued <;> exact ⟨hbounded, Nat.le_refl _⟩
  · exact ⟨trivial, Nat.succ_le_succ (Nat.zero_le _)⟩
  · exact ⟨trivial, Nat.le_refl _⟩
  · exact ⟨trivial, Nat.succ_le_succ (Nat.zero_le _)⟩
  · exact ⟨trivial, Nat.zero_le _⟩
  · rename_i msg id
    by_cases hrepeats : msg.repeatsAfter = true
    · obtain ⟨hbounded', hleft⟩ := Life.left_markDelivered hbounded hfrom.1 hrepeats
      rw [if_pos hrepeats]
      exact ⟨hbounded', Nat.le_of_eq hleft⟩
    · rw [if_neg hrepeats]
      exact ⟨trivial, Nat.zero_le _⟩
  · exact ⟨trivial, Nat.le_refl _⟩
  · exact ⟨trivial, Nat.le_refl _⟩

theorem countP_given_le (hfrom : c.From accepted) (hbounded : c.Bounded) (hrun : run Course.step c w = some c') :
    w.countP isGiven ≤ c.left := by
  have hcount := countP_le_left (fun c : Course => c.From accepted ∧ c.Bounded) left isGiven
    (fun c e c' h hstep => ⟨h.1.step hstep, (left_step h.1 h.2 hstep).1⟩)
    (fun c e c' h hstep => (left_step h.1 h.2 hstep).2) ⟨hfrom, hbounded⟩ hrun
  exact Nat.le_trans (Nat.le_add_right _ _) hcount

/-- What was given and not taken is left where it is. -/
theorem left_of_failed {msg : ScheduledMessage} (hstep : c.step (.failed msg) = some c') : c'.Bounded ∧ c'.left = 0 := by
  cases c with
  | held m queued =>
    cases queued <;> obtain rfl := Option.some.inj hstep <;> exact ⟨trivial, rfl⟩
  | sent m queued => cases queued <;> exact nomatch hstep
  | _ => exact nomatch hstep

/-- What is cancelled is given once more at most, when the runner has it. -/
theorem left_of_cancelled {id : String} (hstep : c.step (.call (.cancelled id)) = some c') :
    c'.Bounded ∧ c'.left ≤ 1 := by
  cases c with
  | waiting m | stuck m =>
    obtain rfl := Option.some.inj hstep
    exact ⟨trivial, Nat.zero_le 1⟩
  | held m queued =>
    cases queued with
    | true =>
      obtain rfl := Option.some.inj hstep
      exact ⟨trivial, Nat.le_refl 1⟩
    | false => exact nomatch hstep
  | sent m queued =>
    cases queued with
    | true =>
      obtain rfl := Option.some.inj hstep
      exact ⟨trivial, Nat.zero_le 1⟩
    | false => exact nomatch hstep
  | _ => exact nomatch hstep

/-- What has still to be given, of a schedule for one message. -/
def pending : Course → Nat
  | .waiting _ | .held _ _ => 1
  | _ => 0

/-- It was not cancelled while the runner had it. -/
def Kept : Course → Prop
  | .held _ queued | .sent _ queued => queued = true
  | _ => True

end Course

/-! ## The runner delivers -/

namespace SchedulerRunner

variable {id : String} {c : Course} {accepted : ScheduledMessage}

/-- What a record says of the messages that went out. -/
structure Delivers (events : List RunnerEvent) : Prop where
  /-- It was accepted as it is, and a check found its time come. -/
  due : Backed Due events
  /-- What does not repeat is given to the output at most once. -/
  single : ∀ msg, .call (.scheduled msg) ∈ events → msg.recurrence = none → givens msg.id events ≤ 1
  /-- What repeats up to a maximum no more often than that. -/
  atMost : ∀ msg, .call (.scheduled msg) ∈ events → msg.recurrence ≠ none → 0 < msg.maxDeliveries →
    givens msg.id events ≤ msg.maxDeliveries.toNat
  /-- What was not taken is never given again. -/
  failed : ∀ before msg later, events = before ++ .failed msg :: later → givens msg.id later = 0
  /-- What was cancelled goes out once more at most. -/
  cancelled : ∀ before id later, events = before ++ .call (.cancelled id) :: later → givens id later ≤ 1

/-- What a record tells of what was accepted, from then on. -/
theorem course_of_accepted {events : List RunnerEvent} (honce : Once (scheduling events))
    (hword : run Course.step .unborn (courseOf id events) = some c) (hmem : .call (.scheduled accepted) ∈ events)
    (hid : accepted.id = id) :
    ∃ rest, courseOf id events = .call (.scheduled accepted) :: rest ∧
      run Course.step (.waiting accepted) rest = some c ∧ (Course.waiting accepted).From accepted := by
  have htopic : .call (.scheduled accepted) ∈ courseOf id events := mem_concerning.mpr ⟨hmem, congrArg some hid⟩
  have hfresh := honce.fresh accepted (mem_accepted.mpr (mem_scheduling.mpr hmem))
  rcases Course.run_unborn hword with ⟨hnil, -⟩ | ⟨first, rest, hcourse, hrest⟩
  · rw [hnil] at htopic
    exact absurd htopic List.not_mem_nil
  · rcases List.mem_cons.mp (hcourse ▸ htopic) with heq | hlater
    · obtain rfl := SchedulerEvent.scheduled.inj (RunnerEvent.call.inj heq)
      exact ⟨rest, hcourse, hrest, hfresh.1, rfl, rfl, rfl, rfl, fun _ => rfl⟩
    · -- a course is not begun twice
      obtain ⟨before, later, rfl⟩ := List.append_of_mem hlater
      rw [run_append] at hrest
      obtain ⟨c₁, hbefore, hafter⟩ := Option.bind_eq_some_iff.mp hrest
      obtain ⟨c₂, hstep, -⟩ := run_cons_eq_some.mp hafter
      have hfirst := (mem_concerning.mp (hcourse ▸ List.mem_cons_self)).1
      have hpending := (honce.fresh first (mem_accepted.mpr (mem_scheduling.mpr hfirst))).1
      have hfrom := Course.run_from hbefore hpending
      cases c₁ with
      | unborn => exact hfrom.elim
      | held m queued | sent m queued => cases queued <;> exact nomatch hstep
      | _ => exact nomatch hstep

/-- What is accepted is given to the output as often as it may be. -/
theorem givens_le_left {events : List RunnerEvent} (honce : Once (scheduling events))
    (hword : run Course.step .unborn (courseOf accepted.id events) = some c)
    (hmem : .call (.scheduled accepted) ∈ events) (hbounded : Life.Bounded accepted) :
    givens accepted.id events ≤ Life.left accepted := by
  obtain ⟨rest, hcourse, hrest, hfrom⟩ := course_of_accepted honce hword hmem rfl
  rw [givens, hcourse, List.countP_cons_of_neg (by exact nofun)]
  exact Course.countP_given_le hfrom hbounded hrest

/-- What is given after an event about a schedule is what is left after it. -/
theorem givens_after {events before later : List RunnerEvent} {e : RunnerEvent} (honce : Once (scheduling events))
    (hword : run Course.step .unborn (courseOf id events) = some c) (hevents : events = before ++ e :: later)
    (htopic : e.topic = some id) (hnew : ∀ msg, e ≠ .call (.scheduled msg)) :
    ∃ c₁ c₂, Course.step c₁ e = some c₂ ∧ (c₂.Bounded → givens id later ≤ c₂.left) := by
  obtain ⟨c₁, c₂, hbefore, hstep, hlater⟩ := run_concerning_split htopic (hevents ▸ hword)
  refine ⟨c₁, c₂, hstep, fun hbounded => ?_⟩
  have honce' : Once (scheduling before) := by
    rw [hevents, scheduling_append] at honce
    exact honce.left
  rcases from_of_once honce' hbefore with rfl | ⟨accepted, hfrom⟩
  · obtain ⟨accepted, rfl, -⟩ := Course.step_unborn hstep
    exact absurd rfl (hnew accepted)
  · exact Course.countP_given_le (hfrom.step hstep) hbounded hlater

/-- **The runner delivers what is due**: nothing early, altered or too often, and nothing that the output has refused. -/
theorem delivers_run (config : SchedulerConfig) (runner : RunnerConfig) (steps : List RunnerStep)
    (s : SchedulerRunner × List RunnerEvent) (hrun : Runs config runner steps s) (honce : Once (scheduling s.2)) :
    Delivers s.2 := by
  have hfollows := follows_run hrun honce
  refine ⟨due_run hrun honce, ?_, ?_, ?_, ?_⟩
  · intro msg hmem hsingle
    obtain ⟨c, hword, -⟩ := hfollows msg.id
    have hpending := (honce.fresh msg (mem_accepted.mpr (mem_scheduling.mpr hmem))).1
    have hleft : Life.left msg = 1 := by rw [Life.left, if_pos hsingle, if_pos hpending]
    exact hleft ▸ givens_le_left honce hword hmem (Or.inl hsingle)
  · intro msg hmem hrepeats hmax
    obtain ⟨c, hword, -⟩ := hfollows msg.id
    obtain ⟨hpending, hcount⟩ := honce.fresh msg (mem_accepted.mpr (mem_scheduling.mpr hmem))
    have hleft : Life.left msg = msg.maxDeliveries.toNat := by
      rw [Life.left, if_neg hrepeats, if_pos hpending, hcount]
      rfl
    have hbounded : Life.Bounded msg := Or.inr (by rw [hcount]; exact hmax)
    exact hleft ▸ givens_le_left honce hword hmem hbounded
  · intro before msg later hevents
    obtain ⟨c, hword, -⟩ := hfollows msg.id
    have hnew : ∀ m, RunnerEvent.failed msg ≠ .call (.scheduled m) := by
      intro m heq
      cases heq
    obtain ⟨c₁, c₂, hstep, hgivens⟩ := givens_after honce hword hevents rfl hnew
    obtain ⟨hbounded, hleft⟩ := Course.left_of_failed hstep
    exact Nat.le_zero.mp (hleft ▸ hgivens hbounded)
  · intro before id later hevents
    obtain ⟨c, hword, -⟩ := hfollows id
    have hnew : ∀ msg, RunnerEvent.call (.cancelled id) ≠ .call (.scheduled msg) := by
      intro msg heq
      cases heq
    obtain ⟨c₁, c₂, hstep, hgivens⟩ := givens_after honce hword hevents rfl hnew
    obtain ⟨hbounded, hleft⟩ := Course.left_of_cancelled hstep
    exact Nat.le_trans (hgivens hbounded) hleft

/-- A message that is submitted, and goes out once. -/
def once : ScheduledMessage := { Scheduler.twice with recurrence := none, maxDeliveries := 0 }

/-- Its run; a second one is not taken by the output. -/
def onceSteps : List RunnerStep :=
  [.submit once, .receive, .schedule { once with id := "sched-1" }, .elapse (fromSecs 1), .check .listed 5, .send true,
    .mark .listed, .send false]

theorem delivers_once : ∃ s, Runs {} {} onceSteps s ∧ Delivers s.2 :=
  ⟨_, rfl, delivers_run {} {} onceSteps _ rfl ⟨by decide, by decide⟩⟩

/-! ## Nothing is lost -/

/-- What waits for its time. -/
def isPending (msg : ScheduledMessage) : Bool := msg.status = .pending

/-- How often the queue has a schedule as Pending. -/
def waiting (self : SchedulerRunner) (id : String) : Nat := (self.scheduler.queued id).countP isPending

/-- How often the runner has it, not sent. -/
def holding (self : SchedulerRunner) (id : String) : Nat := (withId id self.task.unsent).length

/-- What becomes of what is submitted and accepted. -/
structure Conserved (s : SchedulerRunner × List RunnerEvent) : Prop where
  /-- What is submitted is received in its order, or is still in the channel. -/
  channel : s.2.filterMap submission = s.2.filterMap reception ++ s.1.rx
  /-- What was accepted for one message and not cancelled is in the queue, or with the runner, or was given to the
      output, and once. -/
  once : ∀ msg, .call (.scheduled msg) ∈ s.2 → msg.recurrence = none → .call (.cancelled msg.id) ∉ s.2 →
    givens msg.id s.2 + s.1.waiting msg.id + s.1.holding msg.id = 1
  /-- What was not taken stays in the queue, Delivering, unless it is cancelled. -/
  stuck : ∀ msg, .failed msg ∈ s.2 → .call (.cancelled msg.id) ∉ s.2 →
    ∃ entry, s.1.scheduler.queued msg.id = [entry] ∧ entry.status = .delivering

/-- Something is received whenever an interval is not over since the last time; `quiet` is how long nothing was. -/
def Busy (interval : Duration) : (quiet : Duration) → List RunnerStep → Prop
  | _, [] => True
  | quiet, .elapse d :: steps => quiet + d < interval ∧ Busy interval (quiet + d) steps
  | _, .receive :: steps => Busy interval 0 steps
  | quiet, _ :: steps => Busy interval quiet steps

instance decidableBusy (interval : Duration) :
    (quiet : Duration) → (steps : List RunnerStep) → Decidable (Busy interval quiet steps)
  | _, [] => isTrue trivial
  | quiet, .elapse d :: steps =>
    have := decidableBusy interval (quiet + d) steps
    inferInstanceAs (Decidable (_ ∧ _))
  | _, .receive :: steps => decidableBusy interval 0 steps
  | quiet, .submit _ :: steps | quiet, .schedule _ :: steps | quiet, .cancel _ _ :: steps
  | quiet, .check _ _ :: steps | quiet, .send _ :: steps | quiet, .mark _ :: steps => decidableBusy interval quiet steps

/-- There was no check, nothing was taken up, and nothing was given to the output. -/
structure Silent (events : List RunnerEvent) : Prop where
  checked : ∀ now, .checked now ∉ events
  returned : ∀ msg, .call (.returned msg) ∉ events
  given : ∀ e ∈ events, ∀ msg, ¬ Gives msg e

/-- The runner is in the `select!`, and was for no longer than it is quiet. -/
structure Waits (interval quiet : Duration) (s : SchedulerRunner × List RunnerEvent) : Prop where
  interval : s.1.config.checkInterval = interval
  selecting : ∃ since, s.1.task = .selecting since ∧ s.1.elapsed ≤ since + quiet
  silent : Silent s.2

theorem Silent.append {events seen : List RunnerEvent} (h : Silent events) (hseen : Silent seen) :
    Silent (events ++ seen) :=
  ⟨fun now hmem => (List.mem_append.mp hmem).elim (h.checked now) (hseen.checked now),
    fun msg hmem => (List.mem_append.mp hmem).elim (h.returned msg) (hseen.returned msg),
    fun e hmem => (List.mem_append.mp hmem).elim (h.given e) (hseen.given e)⟩

/-- A call that takes nothing up. -/
theorem silent_call {self : SchedulerRunner} {call : SchedulerCall}
    (hcall : ∀ msg, .returned msg ∉ (self.scheduler.step call).1) : Silent (self.call call).1 := by
  refine ⟨fun now hmem => ?_, fun msg hmem => ?_, fun e hmem => not_gives_of_mem_call hmem⟩
  · obtain ⟨e, -, heq⟩ := List.mem_map.mp hmem
    cases heq
  · obtain ⟨e, he, heq⟩ := List.mem_map.mp hmem
    obtain rfl := RunnerEvent.call.inj heq
    exact hcall msg he

theorem silent_schedule (self : SchedulerRunner) (msg : ScheduledMessage) : Silent (self.call (.schedule msg)).1 := by
  refine silent_call fun m hmem => ?_
  rcases Scheduler.step_schedule msg self.scheduler with ⟨-, hstep⟩ | ⟨-, stats, hstep⟩ <;> rw [hstep] at hmem
  · exact absurd hmem List.not_mem_nil
  · exact nomatch List.mem_singleton.mp hmem

theorem silent_cancel (self : SchedulerRunner) (order : IterOrder ScheduledMessage) (scheduleId : String) :
    Silent (self.call (.cancel order scheduleId)).1 := by
  refine silent_call fun m hmem => ?_
  rcases (Scheduler.step_cancel order scheduleId self.scheduler).2 with ⟨hstep, -⟩ | ⟨hstep, -⟩ <;> rw [hstep] at hmem
  · exact nomatch List.mem_singleton.mp hmem
  · exact absurd hmem List.not_mem_nil

theorem silent_submitted (msg : ScheduledMessage) : Silent [.submitted msg] := by
  refine ⟨fun now hmem => ?_, fun m hmem => ?_, fun e hmem m hgives => ?_⟩
  · cases List.mem_singleton.mp hmem
  · cases List.mem_singleton.mp hmem
  · obtain rfl := List.mem_singleton.mp hmem
    rcases hgives with heq | heq <;> cases heq

theorem silent_received (msg : ScheduledMessage) : Silent [.received msg] := by
  refine ⟨fun now hmem => ?_, fun m hmem => ?_, fun e hmem m hgives => ?_⟩
  · cases List.mem_singleton.mp hmem
  · cases List.mem_singleton.mp hmem
  · obtain rfl := List.mem_singleton.mp hmem
    rcases hgives with heq | heq <;> cases heq

theorem silent_receive (self : SchedulerRunner) (msg : ScheduledMessage) :
    Silent (.received msg :: (self.call (.schedule msg)).1) :=
  (silent_received msg).append (silent_schedule self msg)

theorem silent_run {interval quiet : Duration} {steps : List RunnerStep} {s s' : SchedulerRunner × List RunnerEvent}
    (h : Waits interval quiet s) (hquiet : quiet < interval) (hbusy : Busy interval quiet steps)
    (hrun : run (noted step) s steps = some s') : Silent s'.2 := by
  induction steps generalizing s quiet with
  | nil =>
    obtain rfl := Option.some.inj hrun
    exact h.silent
  | cons label steps ih =>
    obtain ⟨t, hstep, hrest⟩ := run_cons_eq_some.mp hrun
    obtain ⟨seen, next, hnext, rfl⟩ := noted_eq_some.mp hstep
    obtain ⟨since, htask, hsince⟩ := h.selecting
    cases label with
    | elapse d =>
      obtain ⟨rfl, rfl⟩ := Prod.mk.inj (Option.some.inj hnext)
      have hlater : s.1.elapsed + d ≤ since + (quiet + d) := by
        rw [← Nat.add_assoc]
        exact Nat.add_le_add_right hsince d
      refine ih ?_ hbusy.1 hbusy.2 hrest
      exact ⟨h.interval, ⟨since, htask, hlater⟩, (List.append_nil s.2).symm ▸ h.silent⟩
    | submit msg =>
      obtain ⟨-, hnext⟩ := Option.ite_none_right_eq_some.mp hnext
      obtain ⟨rfl, rfl⟩ := Prod.mk.inj (Option.some.inj hnext)
      refine ih ?_ hquiet hbusy hrest
      exact ⟨h.interval, ⟨since, htask, hsince⟩, h.silent.append (silent_submitted msg)⟩
    | schedule msg =>
      obtain ⟨rfl, rfl⟩ := Prod.mk.inj (Option.some.inj hnext)
      refine ih ?_ hquiet hbusy hrest
      exact ⟨h.interval, ⟨since, htask, hsince⟩, h.silent.append (silent_schedule s.1 msg)⟩
    | cancel order scheduleId =>
      obtain ⟨rfl, rfl⟩ := Prod.mk.inj (Option.some.inj hnext)
      refine ih ?_ hquiet hbusy hrest
      exact ⟨h.interval, ⟨since, htask, hsince⟩, h.silent.append (silent_cancel s.1 order scheduleId)⟩
    | receive =>
      simp only [step, htask] at hnext
      split at hnext
      · next msg rx hselecting hrx =>
        obtain ⟨rfl, rfl⟩ := Prod.mk.inj (Option.some.inj hnext)
        have hzero : 0 < interval := Nat.lt_of_le_of_lt (Nat.zero_le quiet) hquiet
        refine ih ?_ hzero hbusy hrest
        exact ⟨h.interval, ⟨s.1.elapsed, rfl, Nat.le_refl _⟩, h.silent.append (silent_receive s.1 msg)⟩
      · cases hnext
    | check order now =>
      -- the timer would have to be over
      simp only [step, htask, h.interval] at hnext
      obtain ⟨htimer, -⟩ := Option.ite_none_right_eq_some.mp hnext
      exact absurd (Nat.le_of_add_le_add_left (Nat.le_trans htimer hsince)) (Nat.not_le_of_lt hquiet)
    | send isOk | mark order =>
      simp only [step, htask] at hnext
      cases hnext

/-- **Submissions starve the deliveries.**  As long as something is received before each timer is over, there is no
    check, nothing is taken up, and nothing is given to the output, however long it is due. -/
theorem starved_run (config : SchedulerConfig) (runner : RunnerConfig) (steps : List RunnerStep)
    (s : SchedulerRunner × List RunnerEvent) (hinterval : 0 < runner.checkInterval)
    (hbusy : Busy runner.checkInterval 0 steps) (hrun : Runs config runner steps s) : Silent s.2 := by
  have hstart : Waits runner.checkInterval 0 (new config runner, []) :=
    ⟨rfl, ⟨0, rfl, Nat.le_refl 0⟩, fun _ => List.not_mem_nil, fun _ => List.not_mem_nil, fun e he =>
      absurd he List.not_mem_nil⟩
  exact silent_run hstart hinterval hbusy hrun

/-- A message every 0.6 s. -/
def busySteps : List RunnerStep :=
  [.submit once, .receive, .elapse 600000000, .submit { once with id := "sched-1" }, .receive, .elapse 600000000,
    .submit { once with id := "sched-2" }, .receive, .elapse 600000000]

/-- The first of them is due, and is not looked for. -/
theorem starved_by_submissions : ∃ s, Runs {} {} busySteps s ∧ Silent s.2 :=
  ⟨_, rfl, starved_run {} {} busySteps _ (by decide) (by decide) rfl⟩

end SchedulerRunner

end Smppd.Store
