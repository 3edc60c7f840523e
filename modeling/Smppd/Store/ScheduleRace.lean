/-
  CONCURRENT CALLERS of the scheduler (`src/store/scheduler.rs`): `schedule` looks at the two limits under locks that
  it has given back when it pushes.

  A call of `schedule` is five visits of the locks: it looks at the length of the queue, looks at the index, pushes
  on the queue, pushes on the index, and counts.  Anything may happen between two of them.  The other calls hold the
  lock of the queue from their first to their last statement, and are one step.

  `schedule_alone` says that the five visits by themselves are the `schedule` of the sequential scheduler.  Among
  others the limits do not hold, and `overshoots` says by how much they can be exceeded: by one less than there are
  callers, and by no more.  It is the general argument of `CheckThenAct`, once for each of the limits.
-/
import Smppd.Lib.CheckThenAct
import Smppd.Store.ScheduleLimits

set_option linter.unusedVariables false

namespace Smppd.Store.ScheduleRace

open Table Machine CheckThenAct Scheduler

/-! ## Callers -/

/-- Where a caller of `schedule` is. -/
inductive ScheduleTask where
  | idle
  /-- There was room in the queue: about to look at the index. -/
  | counted (scheduled : ScheduledMessage)
  /-- There was room for the ESME: about to push on the queue. -/
  | allowed (scheduled : ScheduledMessage)
  /-- About to push on the index. -/
  | queued (scheduled : ScheduledMessage)
  /-- About to count it. -/
  | indexed (scheduled : ScheduledMessage)

namespace ScheduleTask

/-- What a caller does next; `call` is the call that it begins when it has none. -/
def next : ScheduleTask → SchedulerCall → Scheduler → ScheduleTask × Scheduler
  | .idle, .schedule scheduled, self =>
    if self.config.maxTotal ≤ self.queue.length then (.idle, self) else (.counted scheduled, self)
  | .idle, call, self => (.idle, (self.step call).2)
  | .counted scheduled, _, self =>
    if (self.byEsme.lookup scheduled.esmeId).any fun ids => self.config.maxPerEsme ≤ ids.length then (.idle, self)
    else (.allowed scheduled, self)
  | .allowed scheduled, _, self => (.queued scheduled, { self with queue := self.queue ++ [scheduled] })
  | .queued scheduled, _, self =>
    (.indexed scheduled, { self with
      byEsme := self.byEsme.insert scheduled.esmeId (self.indexed scheduled.esmeId ++ [scheduled.id]) })
  | .indexed _, _, self =>
    (.idle, { self with stats := { self.stats with totalScheduled := self.stats.totalScheduled + 1 } })

/-- It has found room in the queue, and has not taken it. -/
def throughTotal : ScheduleTask → Bool
  | .counted _ | .allowed _ => true
  | _ => false

/-- It has found room among those of an ESME, and has not taken it. -/
def throughEsme (esmeId : String) : ScheduleTask → Bool
  | .allowed scheduled | .queued scheduled => scheduled.esmeId = esmeId
  | _ => false

end ScheduleTask

variable {ι : Type} [Fintype ι] [DecidableEq ι]

/-- A scheduler, and those who call it. -/
structure Callers (ι : Type) where
  tasks : ι → ScheduleTask
  scheduler : Scheduler

namespace Callers

/-- No call has begun. -/
def idle (self : Scheduler) : Callers ι := ⟨fun _ => .idle, self⟩

/-- One of them goes on. -/
def step (s : Callers ι) (label : ι × SchedulerCall) : Option (Callers ι) :=
  let (task, scheduler) := (s.tasks label.1).next label.2 s.scheduler
  some ⟨Function.update s.tasks label.1 task, scheduler⟩

end Callers

open ScheduleTask Callers

variable {s s' : Callers ι} {self : Scheduler} {msg : ScheduledMessage} {i : ι}

omit [Fintype ι] in
theorem step_eq (s : Callers ι) (i : ι) (call : SchedulerCall) :
    s.step (i, call) = some ⟨Function.update s.tasks i ((s.tasks i).next call s.scheduler).1,
      ((s.tasks i).next call s.scheduler).2⟩ := rfl

omit [Fintype ι] in
/-- The visit of a caller whose next step is known. -/
theorem run_visit {tasks : ι → ScheduleTask} {task task' : ScheduleTask} {call : SchedulerCall} {next : Scheduler}
    (h : task.next call self = (task', next)) (labels : List (ι × SchedulerCall)) :
    run Callers.step ⟨Function.update tasks i task, self⟩ ((i, call) :: labels) =
      run Callers.step ⟨Function.update tasks i task', next⟩ labels := by
  have hself : (Function.update tasks i task i).next call self = (task', next) := by
    rw [Function.update_self]
    exact h
  rw [run_cons, step_eq, hself, Option.bind_some, Function.update_idem]

/-! ## A call alone -/

/-- There is no room in the queue, or none for the ESME. -/
theorem next_idle_of_full (hfull : self.config.maxTotal ≤ self.queue.length) :
    ScheduleTask.idle.next (.schedule msg) self = (.idle, self) := if_pos hfull

theorem next_idle (msg : ScheduledMessage) (hroom : self.queue.length < self.config.maxTotal) :
    ScheduleTask.idle.next (.schedule msg) self = (.counted msg, self) := if_neg (Nat.not_le.mpr hroom)

/-- There is room for the ESME. -/
theorem next_counted {call : SchedulerCall}
    (hroom : ∀ ids, self.byEsme.lookup msg.esmeId = some ids → ids.length < self.config.maxPerEsme) :
    (ScheduleTask.counted msg).next call self = (.allowed msg, self) := by
  refine if_neg fun hany => ?_
  obtain ⟨ids, hids, hfull⟩ := (Option.any_eq_true _ _).mp hany
  exact Nat.not_lt.mpr (of_decide_eq_true hfull) (hroom ids hids)

omit [Fintype ι] in
/-- **A call alone** is the `schedule` of the sequential scheduler. -/
theorem schedule_alone (self : Scheduler) (msg : ScheduledMessage) (i : ι) :
    ∃ n, run Callers.step (idle self) (List.replicate n (i, .schedule msg)) = some (idle (self.schedule msg).2) := by
  have hidle : ∀ next : Scheduler, Callers.idle next = ⟨Function.update (fun _ : ι => ScheduleTask.idle) i .idle, next⟩ := by
    intro next
    rw [Function.update_eq_self]
    rfl
  rw [schedule]
  by_cases htotal : self.config.maxTotal ≤ self.queue.length
  · refine ⟨1, ?_⟩
    rw [if_pos htotal, hidle self]
    exact run_visit (next_idle_of_full htotal) []
  · rw [if_neg htotal]
    have hfirst := next_idle msg (Nat.not_le.mp htotal)
    by_cases hesme : ((self.byEsme.lookup msg.esmeId).any fun ids =>
        decide (self.config.maxPerEsme ≤ ids.length)) = true
    · refine ⟨2, ?_⟩
      have hsecond : (ScheduleTask.counted msg).next (.schedule msg) self = (.idle, self) := if_pos hesme
      rw [if_pos hesme, hidle self]
      exact (run_visit hfirst _).trans (run_visit hsecond [])
    · refine ⟨5, ?_⟩
      have hsecond : (ScheduleTask.counted msg).next (.schedule msg) self = (.allowed msg, self) := if_neg hesme
      rw [if_neg hesme, hidle self, hidle _]
      refine ((run_visit hfirst _).trans (run_visit hsecond _)).trans ?_
      exact ((run_visit rfl _).trans (run_visit rfl _)).trans (run_visit rfl [])

/-! ## How far the limits are exceeded -/

/-- The other calls add nothing, neither to the queue nor to a list. -/
structure Shrinks (before after : Scheduler) : Prop where
  config : after.config = before.config
  queue : after.queue.length ≤ before.queue.length
  indexed : ∀ esmeId, (after.indexed esmeId).length ≤ (before.indexed esmeId).length

theorem shrinks_step {call : SchedulerCall} (hcall : call.schedules = false) (self : Scheduler) :
    Shrinks self (self.step call).2 := by
  cases call with
  | schedule msg => exact nomatch hcall
  | cancel order scheduleId =>
    obtain ⟨stats, hself, -⟩ := self.cancel_cases order scheduleId
    rw [step_cancel_snd, hself]
    refine ⟨rfl, ?_, fun esmeId => Nat.le_refl _⟩
    exact (List.length_filter_le _ _).trans (order.perm self.queue).length_eq.le
  | getDue order now limit =>
    obtain ⟨marks, hmessages, hstep, -⟩ := step_getDue order now limit self
    rw [hstep]
    refine ⟨rfl, ?_, fun esmeId => Nat.le_refl _⟩
    show (marks.map taken).length ≤ self.queue.length
    rw [List.length_map, ← List.length_map Prod.fst, hmessages]
    exact (order.perm self.queue).length_eq.le
  | markDelivered order scheduleId =>
    obtain ⟨-, hconfig, hindexed⟩ := foldl_markOne scheduleId (order.arrange self.queue) { self with queue := [] }
    refine ⟨hconfig, ?_, fun esmeId => ?_⟩
    · rw [step_markDelivered]
      exact (List.length_filterMap_le _ _).trans (order.perm self.queue).length_eq.le
    · rw [Scheduler.step, markDelivered, hindexed]
      split
      · exact List.length_filter_le _ _
      · exact Nat.le_refl _

/-- What is there and what is on its way, for both limits. -/
structure Bounded (limits : SchedulerConfig) (s : Callers ι) : Prop where
  config : s.scheduler.config = limits
  total : 0 < limits.maxTotal → Within throughTotal limits.maxTotal s.scheduler.queue.length s.tasks
  perEsme : 0 < limits.maxPerEsme → ∀ esmeId,
    Within (throughEsme esmeId) limits.maxPerEsme (s.scheduler.indexed esmeId).length s.tasks

variable {limits : SchedulerConfig}

/-- Neither the queue nor a list has grown, and nobody was let through. -/
theorem Bounded.update (h : Bounded limits s) {task : ScheduleTask} {next : Scheduler} (hshrinks : Shrinks s.scheduler next)
    (htotal : throughTotal task = true → throughTotal (s.tasks i) = true)
    (hesme : ∀ esmeId, throughEsme esmeId task = true → throughEsme esmeId (s.tasks i) = true) :
    Bounded limits ⟨Function.update s.tasks i task, next⟩ :=
  ⟨hshrinks.config.trans h.config, fun hlimit => (h.total hlimit).update hshrinks.queue htotal,
    fun hlimit esmeId => (h.perEsme hlimit esmeId).update (hshrinks.indexed esmeId) (hesme esmeId)⟩

omit [Fintype ι] [DecidableEq ι] in
theorem shrinks_refl (self : Scheduler) : Shrinks self self := ⟨rfl, Nat.le_refl _, fun _ => Nat.le_refl _⟩

/-- What a list has after a schedule was pushed on it. -/
theorem indexed_push (self : Scheduler) (msg : ScheduledMessage) (esmeId : String) :
    ({ self with byEsme := self.byEsme.insert msg.esmeId (self.indexed msg.esmeId ++ [msg.id]) } : Scheduler).indexed esmeId =
      self.indexed esmeId ++ idsOf esmeId [msg] := indexed_insert self self.stats msg esmeId

/-- The ESME of a schedule that was let through has no more than the limit. -/
theorem indexed_lt_of_not_any (hlimit : 0 < self.config.maxPerEsme)
    (hroom : ¬ ((self.byEsme.lookup msg.esmeId).any fun ids => self.config.maxPerEsme ≤ ids.length) = true) :
    (self.indexed msg.esmeId).length < self.config.maxPerEsme := by
  rw [Scheduler.indexed]
  cases hlookup : self.byEsme.lookup msg.esmeId with
  | none => exact hlimit
  | some ids =>
    rw [hlookup] at hroom
    exact Nat.not_le.mp fun hfull => hroom (decide_eq_true hfull)

/-- **No visit gets beyond the bound.** -/
theorem bounded_next (h : Bounded limits s) (i : ι) (call : SchedulerCall) :
    Bounded limits ⟨Function.update s.tasks i ((s.tasks i).next call s.scheduler).1,
      ((s.tasks i).next call s.scheduler).2⟩ := by
  cases htask : s.tasks i with
  | idle =>
    cases call with
    | schedule msg =>
      rw [ScheduleTask.next]
      split
      · exact h.update (shrinks_refl _) nofun fun _ => nofun
      · rename_i hroom
        rw [h.config] at hroom
        exact ⟨h.config, fun _ => within_of_lt (Nat.not_le.mp hroom), fun hlimit esmeId =>
          (h.perEsme hlimit esmeId).update (Nat.le_refl _) nofun⟩
    | cancel order scheduleId => exact h.update (shrinks_step rfl s.scheduler) nofun fun _ => nofun
    | getDue order now limit => exact h.update (shrinks_step rfl s.scheduler) nofun fun _ => nofun
    | markDelivered order scheduleId => exact h.update (shrinks_step rfl s.scheduler) nofun fun _ => nofun
  | counted msg =>
    rw [ScheduleTask.next]
    split
    · exact h.update (shrinks_refl _) nofun fun _ => nofun
    · rename_i hroom
      refine ⟨h.config, fun hlimit => ?_, fun hlimit esmeId => ?_⟩
      · exact (h.total hlimit).update (Nat.le_refl _) fun _ => by rw [htask]; rfl
      · by_cases hesme : msg.esmeId = esmeId
        · subst hesme
          rw [← h.config] at hlimit ⊢
          exact within_of_lt (indexed_lt_of_not_any hlimit hroom)
        · refine (h.perEsme hlimit esmeId).update (Nat.le_refl _) fun hthrough => ?_
          exact absurd (of_decide_eq_true hthrough) hesme
  | allowed msg =>
    have hthrough : throughTotal (s.tasks i) = true := by rw [htask]; rfl
    refine ⟨h.config, fun hlimit => ?_, fun hlimit esmeId => ?_⟩
    · show Within _ _ (s.scheduler.queue ++ [msg]).length _
      rw [List.length_append]
      exact (h.total hlimit).act hthrough rfl
    · exact (h.perEsme hlimit esmeId).update (Nat.le_refl _) fun hthrough => by rw [htask]; exact hthrough
  | queued msg =>
    refine ⟨h.config, fun hlimit => (h.total hlimit).update (Nat.le_refl _) nofun, fun hlimit esmeId => ?_⟩
    show Within _ _ (Scheduler.indexed _ esmeId).length _
    rw [ScheduleTask.next, indexed_push, List.length_append]
    by_cases hesme : msg.esmeId = esmeId
    · subst hesme
      have hthrough : throughEsme msg.esmeId (s.tasks i) = true := by
        rw [htask]
        exact decide_eq_true rfl
      rw [idsOf_singleton_self]
      exact (h.perEsme hlimit msg.esmeId).act hthrough rfl
    · rw [idsOf_singleton_ne hesme]
      exact (h.perEsme hlimit esmeId).update (Nat.le_refl _) nofun
  | indexed msg => exact h.update ⟨rfl, Nat.le_refl _, fun _ => Nat.le_refl _⟩ nofun fun _ => nofun

theorem bounded_run {steps : List (ι × SchedulerCall)} (hrun : run Callers.step (idle (.new limits)) steps = some s) :
    Bounded limits s := by
  have hstep : ∀ (s : Callers ι) label s', Bounded limits s → s.step label = some s' → Bounded limits s' := by
    rintro s ⟨i, call⟩ s' h hstep
    rw [step_eq] at hstep
    obtain rfl := Option.some.inj hstep
    exact bounded_next h i call
  have hstart : Bounded limits (idle (.new limits) : Callers ι) :=
    ⟨rfl, fun hlimit => within_of_lt hlimit, fun hlimit esmeId => within_of_lt hlimit⟩
  exact run_inv hstep hstart hrun

/-! ## The bound is reached -/

/-- The callers of a list all do a step, one after the other. -/
def inTurn (l : List ι) (msg : ScheduledMessage) : List (ι × SchedulerCall) := l.map fun i => (i, .schedule msg)

omit [Fintype ι] in
/-- **A round**: each of the callers does a step, and `change` is what it does to the scheduler. -/
theorem run_inTurn (msg : ScheduledMessage) (self : Scheduler) (task task' : ScheduleTask) (change : Scheduler → Scheduler) (ok : Scheduler → Prop)
    (hnext : ∀ self, ok self → task.next (.schedule msg) self = (task', change self))
    (hok : ∀ self, ok self → ok (change self)) {l : List ι} (hnodup : l.Nodup) {tasks : ι → ScheduleTask}
    (htasks : ∀ i ∈ l, tasks i = task) (hself : ok self) :
    ∃ tasks', run Callers.step ⟨tasks, self⟩ (inTurn l msg) = some ⟨tasks', change^[l.length] self⟩ ∧
      (∀ i ∈ l, tasks' i = task') ∧ ∀ i ∉ l, tasks' i = tasks i := by
  induction l generalizing tasks self with
  | nil => exact ⟨tasks, rfl, fun i hi => absurd hi List.not_mem_nil, fun i hi => rfl⟩
  | cons i l ih =>
    obtain ⟨hnew, hnodup⟩ := List.nodup_cons.mp hnodup
    have hfirst : (tasks i).next (.schedule msg) self = (task', change self) := by
      rw [htasks i List.mem_cons_self]
      exact hnext self hself
    have hrest : ∀ j ∈ l, Function.update tasks i task' j = task := by
      intro j hj
      have hne : j ≠ i := fun h => hnew (h ▸ hj)
      rw [Function.update_of_ne hne]
      exact htasks j (List.mem_cons_of_mem i hj)
    obtain ⟨tasks', hrun, hgot, hframe⟩ := ih (change self) hnodup hrest (hok self hself)
    refine ⟨tasks', ?_, fun j hj => ?_, fun j hj => ?_⟩
    · have hcons : inTurn (i :: l) msg = (i, .schedule msg) :: inTurn l msg := rfl
      rw [hcons, run_cons, step_eq, hfirst]
      exact hrun
    · rcases List.mem_cons.mp hj with rfl | hj
      · rw [hframe _ hnew, Function.update_self]
      · exact hgot j hj
    · obtain ⟨hne, hj⟩ := not_or.mp (mt List.mem_cons.mpr hj)
      rw [hframe j hj, Function.update_of_ne hne]

/-- What one of the callers pushes. -/
def pushQueue (msg : ScheduledMessage) (self : Scheduler) : Scheduler := { self with queue := self.queue ++ [msg] }

def pushIndex (msg : ScheduledMessage) (self : Scheduler) : Scheduler :=
  { self with byEsme := self.byEsme.insert msg.esmeId (self.indexed msg.esmeId ++ [msg.id]) }

theorem length_pushQueue (msg : ScheduledMessage) (n : Nat) (self : Scheduler) :
    ((pushQueue msg)^[n] self).queue.length = self.queue.length + n ∧
      ∀ esmeId, ((pushQueue msg)^[n] self).indexed esmeId = self.indexed esmeId := by
  induction n generalizing self with
  | zero => exact ⟨rfl, fun _ => rfl⟩
  | succ n ih =>
    obtain ⟨hqueue, hindexed⟩ := ih (pushQueue msg self)
    rw [Function.iterate_succ_apply]
    refine ⟨?_, hindexed⟩
    rw [hqueue, pushQueue, List.length_append, List.length_singleton, Nat.add_assoc, Nat.add_comm 1]

theorem length_pushIndex (n : Nat) (self : Scheduler) :
    (((pushIndex msg)^[n] self).indexed msg.esmeId).length = (self.indexed msg.esmeId).length + n := by
  induction n generalizing self with
  | zero => rfl
  | succ n ih =>
    rw [Function.iterate_succ_apply, ih, pushIndex, indexed_push, idsOf_singleton_self, List.length_append,
      List.length_singleton, Nat.add_assoc, Nat.add_comm 1]

variable (ι) in
/-- **Everybody is let through before anybody pushes**: what the queue has then, and what the list of the ESME has when
    they have pushed on it as well. -/
theorem run_together (hroom : self.HasRoom msg) :
    ∃ steps s, run Callers.step (idle self : Callers ι) steps = some s ∧
      s.scheduler.queue.length = self.queue.length + Fintype.card ι ∧
      ∃ more s', run Callers.step s more = some s' ∧
        (s'.scheduler.indexed msg.esmeId).length = (self.indexed msg.esmeId).length + Fintype.card ι := by
  have hnodup : (Finset.univ : Finset ι).toList.Nodup := Finset.nodup_toList _
  have hlength : (Finset.univ : Finset ι).toList.length = Fintype.card ι := Finset.length_toList _
  have hkeep : ∀ n, (fun next : Scheduler => next)^[n] self = self := fun n => congrFun (Function.iterate_id n) self
  obtain ⟨tasks₁, hrun₁, htasks₁, -⟩ := run_inTurn msg self .idle (.counted msg) (fun next => next) (fun next => next = self)
    (fun next h => h ▸ next_idle msg hroom.1) (fun next h => h) hnodup (fun i hi => rfl) rfl
  obtain ⟨tasks₂, hrun₂, htasks₂, -⟩ := run_inTurn msg self (.counted msg) (.allowed msg)
    (fun next => next) (fun next => next = self) (fun next h => h ▸ next_counted hroom.2) (fun next h => h) hnodup htasks₁ rfl
  obtain ⟨tasks₃, hrun₃, htasks₃, -⟩ := run_inTurn msg self (.allowed msg) (.queued msg) (pushQueue msg)
    (fun _ => True) (fun next _ => rfl) (fun next _ => trivial) hnodup htasks₂ trivial
  obtain ⟨tasks₄, hrun₄, -, -⟩ := run_inTurn msg _ (.queued msg) (.indexed msg) (pushIndex msg)
    (fun _ => True) (fun next _ => rfl) (fun next _ => trivial) hnodup htasks₃ trivial
  obtain ⟨hqueue, hindexed⟩ := length_pushQueue msg (Finset.univ : Finset ι).toList.length self
  rw [hkeep] at hrun₁ hrun₂
  have hstart : run Callers.step (idle self : Callers ι) (inTurn Finset.univ.toList msg) = some ⟨tasks₁, self⟩ := hrun₁
  have hthree : run Callers.step (idle self : Callers ι) (inTurn Finset.univ.toList msg ++
      (inTurn Finset.univ.toList msg ++ inTurn Finset.univ.toList msg)) =
        some ⟨tasks₃, (pushQueue msg)^[(Finset.univ : Finset ι).toList.length] self⟩ := by
    rw [run_append, hstart, Option.bind_some, run_append, hrun₂, Option.bind_some]
    exact hrun₃
  refine ⟨_, _, hthree, ?_, _, _, hrun₄, ?_⟩
  · rw [hqueue, hlength]
  · rw [length_pushIndex, hindexed, hlength]

omit [Fintype ι] in
/-- Calls that come one after the other, as long as each of them finds room. -/
theorem run_fill (i : ι) (f : Nat → ScheduledMessage) (P : Nat → Scheduler → Prop) {self : Scheduler} (h0 : P 0 self)
    (n : Nat) (hstep : ∀ k < n, ∀ next, P k next → P (k + 1) (next.schedule (f k)).2) :
    ∃ steps next, run Callers.step (idle self : Callers ι) steps = some (idle next) ∧ P n next := by
  induction n with
  | zero => exact ⟨[], self, rfl, h0⟩
  | succ n ih =>
    obtain ⟨steps, next, hrun, hnext⟩ := ih fun k hk => hstep k (Nat.lt_succ_of_lt hk)
    obtain ⟨m, hcall⟩ := schedule_alone next (f n) i
    refine ⟨steps ++ List.replicate m (i, .schedule (f n)), _, ?_, hstep n (Nat.lt_succ_self n) next hnext⟩
    rw [run_append, hrun]
    exact hcall

/-- A schedule of an ESME with a name of some length. -/
def ofLength (k : Nat) : ScheduledMessage := { twice with esmeId := String.ofList (List.replicate k 'e') }

theorem ofLength_ne {j k : Nat} (h : j ≠ k) : (ofLength j).esmeId ≠ (ofLength k).esmeId := by
  intro heq
  have hlist : List.replicate j 'e' = List.replicate k 'e' := String.ofList_injective heq
  have hlength := congrArg List.length hlist
  rw [List.length_replicate, List.length_replicate] at hlength
  exact h hlength

/-- The queue has as many schedules as calls have come, each of another ESME. -/
structure Filled (limits : SchedulerConfig) (k : Nat) (scheduler : Scheduler) : Prop where
  config : scheduler.config = limits
  queue : scheduler.queue.length = k
  fresh : ∀ j, k ≤ j → scheduler.byEsme.lookup (ofLength j).esmeId = none

theorem Filled.hasRoom {k : Nat} (h : Filled limits k self) (hk : k < limits.maxTotal) : self.HasRoom (ofLength k) := by
  refine ⟨by rw [h.queue, h.config]; exact hk, fun ids hids => ?_⟩
  rw [h.fresh k (Nat.le_refl k)] at hids
  exact nomatch hids

theorem Filled.succ {k : Nat} (h : Filled limits k self) (hk : k < limits.maxTotal) :
    Filled limits (k + 1) (self.schedule (ofLength k)).2 := by
  rcases self.schedule_cases (ofLength k) with ⟨hfull, -⟩ | ⟨-, stats, haccepted⟩
  · exact absurd (h.hasRoom hk) hfull
  · rw [haccepted]
    refine ⟨h.config, ?_, fun j hj => ?_⟩
    · show (self.queue ++ [_]).length = _
      rw [List.length_append, List.length_singleton, h.queue]
    · show (self.byEsme.insert _ _).lookup _ = none
      rw [AList.lookup_insert_ne (ofLength_ne (Nat.ne_of_gt hj))]
      exact h.fresh j (Nat.le_of_succ_le hj)

/-- The queue has as many schedules as calls have come, all of one ESME. -/
structure Crowded (limits : SchedulerConfig) (msg : ScheduledMessage) (k : Nat) (scheduler : Scheduler) : Prop where
  config : scheduler.config = limits
  queue : scheduler.queue.length = k
  indexed : (scheduler.indexed msg.esmeId).length = k

theorem Crowded.hasRoom {k : Nat} (h : Crowded limits msg k self) (hk : k < limits.maxPerEsme)
    (hle : limits.maxPerEsme ≤ limits.maxTotal) : self.HasRoom msg := by
  refine ⟨by rw [h.queue, h.config]; exact Nat.lt_of_lt_of_le hk hle, fun ids hids => ?_⟩
  have hlist : self.indexed msg.esmeId = ids := by rw [Scheduler.indexed, hids]; rfl
  rw [← hlist, h.indexed, h.config]
  exact hk

theorem Crowded.succ {k : Nat} (h : Crowded limits msg k self) (hk : k < limits.maxPerEsme)
    (hle : limits.maxPerEsme ≤ limits.maxTotal) : Crowded limits msg (k + 1) (self.schedule msg).2 := by
  rcases self.schedule_cases msg with ⟨hfull, -⟩ | ⟨-, stats, haccepted⟩
  · exact absurd (h.hasRoom hk hle) hfull
  · rw [haccepted]
    refine ⟨h.config, ?_, ?_⟩
    · show (self.queue ++ [_]).length = _
      rw [List.length_append, List.length_singleton, h.queue]
    · rw [indexed_insert, idsOf_singleton_self, List.length_append, List.length_singleton, h.indexed]

/-! ## How far -/

/-- By how much the limits can be exceeded when there are callers `ι`. -/
structure Overshoots (ι : Type) [Fintype ι] [DecidableEq ι] (limits : SchedulerConfig) : Prop where
  /-- The queue has less than its limit and one for each caller. -/
  total : 0 < limits.maxTotal → ∀ steps (s : Callers ι), run Callers.step (idle (.new limits)) steps = some s →
    s.scheduler.queue.length < limits.maxTotal + Fintype.card ι
  /-- So has the list of an ESME. -/
  perEsme : 0 < limits.maxPerEsme → ∀ steps (s : Callers ι), run Callers.step (idle (.new limits)) steps = some s →
    ∀ esmeId, (s.scheduler.indexed esmeId).length < limits.maxPerEsme + Fintype.card ι
  /-- And no less will do. -/
  total_reached : 0 < limits.maxTotal → ∃ steps, ∃ s : Callers ι,
    run Callers.step (idle (.new limits)) steps = some s ∧
      s.scheduler.queue.length + 1 = limits.maxTotal + Fintype.card ι
  perEsme_reached : 0 < limits.maxPerEsme → limits.maxPerEsme ≤ limits.maxTotal → ∃ steps, ∃ s : Callers ι,
    run Callers.step (idle (.new limits)) steps = some s ∧
      ∃ esmeId, (s.scheduler.indexed esmeId).length + 1 = limits.maxPerEsme + Fintype.card ι

/-- **The limits are exceeded by one less than there are callers**, and by no more. -/
theorem overshoots (limits : SchedulerConfig) (ι : Type) [Fintype ι] [DecidableEq ι] (i : ι) : Overshoots ι limits := by
  refine ⟨fun hlimit steps s hrun => ?_, fun hlimit steps s hrun esmeId => ?_, fun hlimit => ?_, fun hlimit hle => ?_⟩
  · exact ((bounded_run hrun).total hlimit).load_lt
  · exact ((bounded_run hrun).perEsme hlimit esmeId).load_lt
  · have hfirst : Filled limits 0 (.new limits) := ⟨rfl, rfl, fun _ _ => rfl⟩
    obtain ⟨fill, next, hfill, hfilled⟩ := run_fill i ofLength (Filled limits) hfirst (limits.maxTotal - 1) fun k hk next h => h.succ (by omega)
    obtain ⟨steps, s, hrun, hqueue, -⟩ := run_together ι (hfilled.hasRoom (by omega))
    refine ⟨fill ++ steps, s, ?_, ?_⟩
    · rw [run_append, hfill]
      exact hrun
    · rw [hqueue, hfilled.queue]
      omega
  · have hfirst : Crowded limits twice 0 (.new limits) := ⟨rfl, rfl, rfl⟩
    obtain ⟨fill, next, hfill, hcrowded⟩ := run_fill i (fun _ => twice) (Crowded limits twice) hfirst
      (limits.maxPerEsme - 1) fun k hk next h => h.succ (by omega) hle
    obtain ⟨steps, s, hrun, -, more, s', hmore, hindexed⟩ := run_together ι (hcrowded.hasRoom (by omega) hle)
    refine ⟨fill ++ (steps ++ more), s', ?_, twice.esmeId, ?_⟩
    · rw [run_append, hfill, Option.bind_some, run_append, hrun]
      exact hmore
    · rw [hindexed, hcrowded.indexed]
      omega

end Smppd.Store.ScheduleRace
