/-
  LIMITS of the scheduler, and what a refusal leaves behind.

  A refusal is CLEAN: `schedule` checks before it writes, and a `cancel` that finds nothing has drained the queue
  for nothing and pushes everything back.  The order may be another one; what is queued, the index and the
  statistics are the same.

  The limits hold too, but for one case.  `schedule` looks the list of the ESME up, and checks it only if there
  is one: an ESME without a list gets its first schedule whatever `max_per_esme` is.  That is one too many when
  the limit is 0, and only then (`limits_hold_iff`).

  `KeepsLimits` is what a call must be for the limits to be kept.  It is a condition on one call in one state
  (`withinLimits_step_iff`); what it comes to over a run is read off the first schedule that finds room.
-/
import Smppd.Store.ScheduleIndex

set_option linter.unusedVariables false

namespace Smppd.Store

open Table Machine Transducer

/-- The call is one to `schedule`. -/
def SchedulerCall.schedules : SchedulerCall → Bool
  | .schedule _ => true
  | .cancel _ _ => false
  | .getDue _ _ _ => false
  | .markDelivered _ _ => false

namespace Scheduler

/-! ## Refusals -/

/-- The same schedules are queued, and the rest is as it was. -/
structure SameAs (s next : Scheduler) : Prop where
  queue : next.queue.Perm s.queue
  byEsme : next.byEsme = s.byEsme
  stats : next.stats = s.stats
  config : next.config = s.config

theorem SameAs.refl (self : Scheduler) : SameAs self self := ⟨List.Perm.refl _, rfl, rfl, rfl⟩

/-- A schedule that is refused was not written down anywhere. -/
theorem schedule_refused {scheduled : ScheduledMessage} {self : Scheduler} {e : SchedulerError}
    (h : (self.schedule scheduled).1 = .error e) : SameAs self (self.schedule scheduled).2 := by
  rcases self.schedule_cases scheduled with ⟨-, e', hrefused⟩ | ⟨-, stats, haccepted⟩
  · rw [hrefused]
    exact SameAs.refl self
  · rw [haccepted] at h
    cases h

/-- A cancel that finds nothing has put everything back. -/
theorem cancel_notFound {order : IterOrder ScheduledMessage} {scheduleId : String} {self : Scheduler}
    (h : (self.cancel order scheduleId).1 = .error .notFound) : SameAs self (self.cancel order scheduleId).2 := by
  rw [cancel] at h ⊢
  by_cases hfound : ((order.arrange self.queue).any fun msg => decide (msg.id = scheduleId)) = true
  · rw [if_pos hfound] at h
    cases h
  · rw [if_neg hfound]
    refine ⟨?_, rfl, rfl, rfl⟩
    have hall : (order.arrange self.queue).filter (fun msg => decide (msg.id ≠ scheduleId)) =
        order.arrange self.queue := by
      refine List.filter_eq_self.mpr fun msg hmem => decide_eq_true fun hid => hfound ?_
      exact List.any_eq_true.mpr ⟨msg, hmem, decide_eq_true hid⟩
    show ((order.arrange self.queue).filter fun msg => decide (msg.id ≠ scheduleId)).Perm self.queue
    rw [hall]
    exact order.perm self.queue

/-! ## Limits -/

/-- No limit is exceeded. -/
structure WithinLimits (s : Scheduler) : Prop where
  total : s.queue.length ≤ s.config.maxTotal
  perEsme : ∀ esmeId, (s.indexed esmeId).length ≤ s.config.maxPerEsme

/-- A schedule for which there is room is one that the ESME may have. -/
def KeepsLimits (self : Scheduler) : SchedulerCall → Prop
  | .schedule msg => self.HasRoom msg → 0 < self.config.maxPerEsme
  | .cancel _ _ => True
  | .getDue _ _ _ => True
  | .markDelivered _ _ => True

/-- Where neither the queue nor a list has grown, the limits are kept. -/
theorem WithinLimits.shrink {self next : Scheduler} (h : self.WithinLimits) (hconfig : next.config = self.config)
    (hqueue : next.queue.length ≤ self.queue.length)
    (hindexed : ∀ esmeId, (next.indexed esmeId).length ≤ (self.indexed esmeId).length) : next.WithinLimits := by
  refine ⟨?_, fun esmeId => ?_⟩
  · rw [hconfig]
    exact hqueue.trans h.total
  · rw [hconfig]
    exact (hindexed esmeId).trans (h.perEsme esmeId)

section Calls

variable {self : Scheduler}

/-- The list of an ESME has room when the schedule does and the limit is not 0. -/
theorem HasRoom.indexed_lt {msg : ScheduledMessage} (h : self.HasRoom msg) (hlimit : 0 < self.config.maxPerEsme) :
    (self.indexed msg.esmeId).length < self.config.maxPerEsme := by
  rw [indexed]
  cases hlookup : self.byEsme.lookup msg.esmeId with
  | none => exact hlimit
  | some ids => exact h.2 ids hlookup

theorem withinLimits_schedule_iff (h : self.WithinLimits) (msg : ScheduledMessage) :
    (self.step (.schedule msg)).2.WithinLimits ↔ self.KeepsLimits (.schedule msg) := by
  rw [KeepsLimits]
  rcases step_schedule msg self with ⟨hfull, hrefused⟩ | ⟨hroom, stats, haccepted⟩
  · rw [hrefused]
    exact iff_of_true h fun hroom => absurd hroom hfull
  · rw [haccepted]
    have hindexed := indexed_insert self stats msg
    constructor
    · intro h' _
      -- its list has at least the schedule itself
      have hlist := h'.perEsme msg.esmeId
      rw [hindexed, idsOf_singleton_self, List.length_append, List.length_singleton] at hlist
      exact Nat.lt_of_lt_of_le (Nat.succ_pos _) hlist
    · intro hlimit
      refine ⟨?_, fun esmeId => ?_⟩
      · show (self.queue ++ [msg]).length ≤ _
        rw [List.length_append, List.length_singleton]
        exact hroom.1
      · rw [hindexed]
        by_cases hesme : msg.esmeId = esmeId
        · rw [← hesme, idsOf_singleton_self, List.length_append, List.length_singleton]
          exact hroom.indexed_lt (hlimit hroom)
        · rw [idsOf_singleton_ne hesme, List.append_nil]
          exact h.perEsme esmeId

theorem step_cancel_snd (order : IterOrder ScheduledMessage) (scheduleId : String) (self : Scheduler) :
    (self.step (.cancel order scheduleId)).2 = (self.cancel order scheduleId).2 := by
  rw [step]
  rcases self.cancel order scheduleId with ⟨answer, next⟩
  cases answer <;> rfl

/-- What a cancel does to the limits: nothing, for it does not touch the index. -/
theorem withinLimits_cancel (h : self.WithinLimits) (order : IterOrder ScheduledMessage) (scheduleId : String) :
    (self.step (.cancel order scheduleId)).2.WithinLimits := by
  obtain ⟨stats, hself, -⟩ := self.cancel_cases order scheduleId
  rw [step_cancel_snd, hself]
  refine h.shrink rfl ?_ fun esmeId => Nat.le_refl _
  exact (List.length_filter_le _ _).trans (order.perm self.queue).length_eq.le

/-- What is taken out stays in the queue. -/
theorem withinLimits_getDue (h : self.WithinLimits) (order : IterOrder ScheduledMessage) (now : SystemTime)
    (limit : Nat) : (self.step (.getDue order now limit)).2.WithinLimits := by
  obtain ⟨marks, hmessages, hstep, -⟩ := step_getDue order now limit self
  rw [hstep]
  refine h.shrink rfl ?_ fun esmeId => Nat.le_refl _
  show (marks.map taken).length ≤ self.queue.length
  rw [List.length_map, ← List.length_map Prod.fst, hmessages]
  exact (order.perm self.queue).length_eq.le

theorem withinLimits_markDelivered (h : self.WithinLimits) (order : IterOrder ScheduledMessage)
    (scheduleId : String) : (self.step (.markDelivered order scheduleId)).2.WithinLimits := by
  obtain ⟨hqueue, hconfig, hindexed⟩ := foldl_markOne scheduleId (order.arrange self.queue) { self with queue := [] }
  refine h.shrink hconfig ?_ fun esmeId => ?_
  · rw [step_markDelivered]
    exact (List.length_filterMap_le _ _).trans (order.perm self.queue).length_eq.le
  · rw [step, markDelivered, hindexed]
    split
    · exact List.length_filter_le _ _
    · exact Nat.le_refl _

/-- **One call**: the limits stay kept when the call keeps them, and only then. -/
theorem withinLimits_step_iff (h : self.WithinLimits) (call : SchedulerCall) :
    (self.step call).2.WithinLimits ↔ self.KeepsLimits call := by
  cases call with
  | schedule msg => exact withinLimits_schedule_iff h msg
  | cancel order scheduleId => exact iff_of_true (withinLimits_cancel h order scheduleId) trivial
  | getDue order now limit => exact iff_of_true (withinLimits_getDue h order now limit) trivial
  | markDelivered order scheduleId => exact iff_of_true (withinLimits_markDelivered h order scheduleId) trivial

/-! ## Whole runs -/

/-- Nothing is queued, and no ESME has a list. -/
def Vacant (s : Scheduler) : Prop := s.queue = [] ∧ ∀ esmeId, s.byEsme.lookup esmeId = none

/-- In a vacant scheduler there is room for a first schedule, unless there is no room at all. -/
theorem Vacant.hasRoom_iff (h : self.Vacant) (msg : ScheduledMessage) : self.HasRoom msg ↔ 0 < self.config.maxTotal := by
  refine ⟨fun hroom => ?_, fun hpos => ⟨?_, fun ids hids => ?_⟩⟩
  · exact Nat.lt_of_le_of_lt (Nat.zero_le _) hroom.1
  · rw [h.1]
    exact hpos
  · rw [h.2 msg.esmeId] at hids
    cases hids

/-- A vacant scheduler stays vacant as long as nothing can be scheduled, or nothing is. -/
theorem Vacant.step (h : self.Vacant) {call : SchedulerCall}
    (hcall : self.config.maxTotal = 0 ∨ ¬ call.schedules = true) :
    (self.step call).2.Vacant ∧ self.KeepsLimits call := by
  have hnone : ∀ order : IterOrder ScheduledMessage, order.arrange self.queue = [] := by
    intro order
    rw [h.1]
    exact (order.perm []).eq_nil
  cases call with
  | schedule msg =>
    have hfull : ¬ self.HasRoom msg := by
      rw [h.hasRoom_iff, Nat.not_lt]
      rcases hcall with hzero | hcall
      · exact hzero.le
      · exact absurd rfl hcall
    rcases step_schedule msg self with ⟨-, hrefused⟩ | ⟨hroom, -⟩
    · rw [hrefused]
      exact ⟨h, fun hroom => absurd hroom hfull⟩
    · exact absurd hroom hfull
  | cancel order scheduleId =>
    rw [Scheduler.step, cancel, hnone]
    exact ⟨⟨rfl, h.2⟩, trivial⟩
  | getDue order now limit =>
    rw [Scheduler.step, getDue, hnone]
    exact ⟨⟨rfl, h.2⟩, trivial⟩
  | markDelivered order scheduleId =>
    rw [Scheduler.step, markDelivered, hnone]
    exact ⟨⟨rfl, h.2⟩, trivial⟩

end Calls

/-- A call does not change the configuration. -/
theorem step_config (self : Scheduler) (call : SchedulerCall) : (self.step call).2.config = self.config := by
  cases call with
  | schedule msg =>
    rcases step_schedule msg self with ⟨-, hrefused⟩ | ⟨-, stats, haccepted⟩
    · rw [hrefused]
    · rw [haccepted]
  | cancel order scheduleId =>
    obtain ⟨stats, hself, -⟩ := self.cancel_cases order scheduleId
    rw [step_cancel_snd, hself]
  | getDue order now limit => rfl
  | markDelivered order scheduleId => exact (foldl_markOne scheduleId (order.arrange self.queue) _).2.1

/-- Where an ESME may have schedules, every call keeps the limits. -/
theorem meets_of_perEsme {self : Scheduler} (h : 0 < self.config.maxPerEsme) (calls : List SchedulerCall) :
    Meets next KeepsLimits self calls := by
  induction calls generalizing self with
  | nil => trivial
  | cons call calls ih =>
    refine ⟨?_, fun s' hs' => ?_⟩
    · cases call with
      | schedule msg => exact fun _ => h
      | cancel order scheduleId => trivial
      | getDue order now limit => trivial
      | markDelivered order scheduleId => trivial
    · obtain rfl := Option.some.inj hs'
      exact ih (by rw [step_config]; exact h)

/-- Where it may have none, nothing may find room: either there is none, or nothing is scheduled. -/
theorem meets_iff_of_vacant {self : Scheduler} (h : self.Vacant) (hnone : self.config.maxPerEsme = 0)
    (calls : List SchedulerCall) :
    Meets next KeepsLimits self calls ↔ self.config.maxTotal = 0 ∨ ∀ call ∈ calls, ¬ call.schedules = true := by
  induction calls generalizing self with
  | nil => exact iff_of_true trivial (Or.inr fun call hmem => absurd hmem List.not_mem_nil)
  | cons call calls ih =>
    have hconfig := self.step_config call
    have hrest (hvacant : (self.step call).2.Vacant) := ih hvacant (by rw [hconfig]; exact hnone)
    have hnext : next self call = some (self.step call).2 := rfl
    rw [meets_cons hnext, List.forall_mem_cons]
    constructor
    · rintro ⟨hok, hmeets⟩
      by_cases htotal : self.config.maxTotal = 0
      · exact Or.inl htotal
      · have hcall : ¬ call.schedules = true := by
          intro hcall
          cases call with
          | schedule msg =>
            have hroom := (h.hasRoom_iff msg).mpr (Nat.pos_of_ne_zero htotal)
            exact Nat.ne_of_gt (hok hroom) hnone
          | cancel order scheduleId => cases hcall
          | getDue order now limit => cases hcall
          | markDelivered order scheduleId => cases hcall
        rcases (hrest (h.step (Or.inr hcall)).1).mp hmeets with hzero | hall
        · rw [hconfig] at hzero
          exact absurd hzero htotal
        · exact Or.inr ⟨hcall, hall⟩
    · rintro (hzero | ⟨hcall, hall⟩)
      · have hstays : (self.step call).2.Vacant ∧ self.KeepsLimits call := h.step (Or.inl hzero)
        obtain ⟨hvacant, hok⟩ := hstays
        exact ⟨hok, (hrest hvacant).mpr (Or.inl (hconfig ▸ hzero))⟩
      · obtain ⟨hvacant, hok⟩ := h.step (Or.inr hcall)
        exact ⟨hok, (hrest hvacant).mpr (Or.inr hall)⟩

/-- **The limits hold all along a run** exactly when every call keeps them. -/
theorem withinLimits_run_iff (config : SchedulerConfig) (calls : List SchedulerCall) :
    (∀ before later, calls = before ++ later → (reached config before).WithinLimits) ↔
      Meets next KeepsLimits (.new config) calls := by
  have hnew : (Scheduler.new config).WithinLimits := ⟨Nat.zero_le _, fun esmeId => Nat.zero_le _⟩
  have hstep : ∀ s call s', True → s.WithinLimits → next s call = some s' →
      (s'.WithinLimits ↔ s.KeepsLimits call) := by
    intro s call s' _ hlimits hnext
    obtain rfl := Option.some.inj hnext
    exact withinLimits_step_iff hlimits call
  rw [meets_iff_always (fun _ _ _ _ _ => trivial) hstep trivial hnew (run_next _ calls), always_reached_iff]

/-- **Refusals are clean, and limits hold**: the first always, the second exactly when an ESME may have a schedule,
    or nobody may, or nothing is scheduled. -/
theorem limits_hold_iff (self : Scheduler) (config : SchedulerConfig) (calls : List SchedulerCall) :
    ((∀ scheduled e, (self.schedule scheduled).1 = .error e → SameAs self (self.schedule scheduled).2) ∧
        ∀ order scheduleId, (self.cancel order scheduleId).1 = .error .notFound →
          SameAs self (self.cancel order scheduleId).2) ∧
      ((∀ before later, calls = before ++ later → (reached config before).WithinLimits) ↔
        0 < config.maxPerEsme ∨ config.maxTotal = 0 ∨ ∀ call ∈ calls, ¬ call.schedules = true) := by
  refine ⟨⟨fun _ _ => schedule_refused, fun _ _ => cancel_notFound⟩, ?_⟩
  rw [withinLimits_run_iff]
  by_cases hlimit : 0 < config.maxPerEsme
  · exact iff_of_true (meets_of_perEsme hlimit calls) (Or.inl hlimit)
  · have hvacant : (Scheduler.new config).Vacant := ⟨rfl, fun esmeId => rfl⟩
    rw [meets_iff_of_vacant hvacant (Nat.le_zero.mp (Nat.not_lt.mp hlimit)), or_iff_right hlimit]
    exact Iff.rfl

/-- **One too many**: an ESME that may have no schedule has one. -/
theorem limit_of_zero_exceeded : ¬ (reached { maxPerEsme := 0 } [.schedule twice]).WithinLimits :=
  fun h => absurd (h.perEsme "esme1") (by decide)

end Scheduler

end Smppd.Store
