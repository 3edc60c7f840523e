/-
  The REACTOR of the event bus (`Bus::spawn_reactor` in `src/bootstrap/events.rs`): a task that takes every event from
  the bus and gives it to the registered handlers, one after the other.

  It reads the list of handlers under a lock, and holds the lock while they handle the event.  A registration waits for
  that, and so the handlers of an event are those that were registered when the lock was taken.  What a handler
  publishes while it handles an event comes later; but a handler that REGISTERS another one waits for the reactor,
  which waits for the handler (`stuck_run`).

  `dispatches_run` says what else may happen, in any order: every handler is given, once and in the order of the bus, the
  events of its categories that were dispatched after it was registered; and these are all that were published, but
  for those of which the bus has told the reactor that it had missed them.
-/
import Smppd.Bootstrap.Events
import Smppd.Lib.Broadcast
import Smppd.Lib.Locks
import Smppd.Lib.Record

namespace Smppd.Bootstrap

open Broadcast Locks Machine Record

/-! ## The reactor -/

/-- What a handler does on the bus while it handles an event. -/
inductive HandlerAct (H : Type) where
  | publish (event : Event)
  | register (handler : H)

/-- The trait `EventHandler`, without `handle`: what a handler does with an event is up to it. -/
structure EventHandler (H : Type) where
  /-- The categories that the handler is interested in; none means all. -/
  categories : H → List EventCategory

/-- Where the reactor is. -/
inductive Reactor (H : Type) where
  /-- At `rx.recv()`. -/
  | listening
  /-- At `handlers.read()`. -/
  | received (event : Event)
  /-- It has the lock, and comes to the handler at a position when the one before it has done the rest. -/
  | dispatching (event : Event) (position : Nat) (rest : List (HandlerAct H))

/-- The bus, as far as the reactor knows it. -/
structure ReactorBus (H : Type) where
  log : List Event
  rx : Receiver
  handlers : List H
  reactor : Reactor H

/-- What is seen of it. -/
inductive ReactorEvent (H : Type) where
  | published (event : Event)
  | registered (handler : H)
  /-- "event reactor lagged behind". -/
  | lagged (missed : Nat)
  | dispatching (event : Event)
  /-- The handler at a position is given an event. -/
  | handled (position : Nat) (event : Event)

/-- What can happen next. -/
inductive ReactorStep (H : Type) where
  /-- Somebody publishes an event. -/
  | publish (event : Event)
  /-- `register_handler` has the lock. -/
  | register (handler : H)
  /-- `rx.recv()` returns. -/
  | recv
  /-- The reactor has the lock. -/
  | read
  /-- It goes on to the next handler, which will do this if it is given the event. -/
  | next (acts : List (HandlerAct H))
  /-- The handler goes on. -/
  | act

/-- Who takes the lock on the handlers. -/
inductive LockUser where
  /-- The reactor, for reading. -/
  | reactor
  /-- The handler that it has called, and that registers another one. -/
  | handler
  /-- Whoever registers one otherwise. -/
  | other
  deriving DecidableEq

instance : Fintype LockUser := ⟨{.reactor, .handler, .other}, fun user => by cases user <;> decide⟩

variable {H : Type} (trait : EventHandler H) (size : Nat)

/-- `categories.is_empty() || categories.contains(&event.category())`. -/
def EventHandler.interested (handler : H) (event : Event) : Bool :=
  (trait.categories handler).isEmpty || (trait.categories handler).contains event.category

namespace ReactorBus

/-- `spawn_reactor`. -/
def spawn (log : List Event) (handlers : List H) : ReactorBus H := ⟨log, subscribe log, handlers, .listening⟩

/-- The guards that are alive from one step to the next: that of the reactor, which it has as long as it dispatches an
    event. -/
def guards (self : ReactorBus H) : LockUser → List (Guard Unit)
  | .reactor =>
    match self.reactor with
    | .dispatching .. => [((), .read)]
    | _ => []
  | _ => []

/-- `register_handler`, when the lock is to be had. -/
def registerHandler (self : ReactorBus H) (user : LockUser) (handler : H) : Option (ReactorBus H) :=
  if Free self.guards user ((), .write) then some { self with handlers := self.handlers ++ [handler] } else none

/-- One step. -/
def step (self : ReactorBus H) : ReactorStep H → Option (List (ReactorEvent H) × ReactorBus H)
  | .publish event => some ([.published event], { self with log := self.log ++ [event] })
  | .register handler => (self.registerHandler .other handler).map fun next => ([.registered handler], next)
  | .recv =>
    match self.reactor with
    | .listening =>
      match recv size self.log self.rx with
      | (.ok event, rx) => some ([], { self with rx, reactor := .received event })
      | (.lagged missed, rx) => some ([.lagged missed], { self with rx })
      | (.empty, _) => none
    | _ => none
  | .read =>
    match self.reactor with
    | .received event => some ([.dispatching event], { self with reactor := .dispatching event 0 [] })
    | _ => none
  | .next acts =>
    match self.reactor with
    | .dispatching event position [] =>
      match self.handlers[position]? with
      | some handler =>
        if trait.interested handler event then
          some ([.handled position event], { self with reactor := .dispatching event (position + 1) acts })
        else some ([], { self with reactor := .dispatching event (position + 1) [] })
      | none => some ([], { self with reactor := .listening })
    | _ => none
  | .act =>
    match self.reactor with
    | .dispatching event position (.publish event' :: rest) =>
      some ([.published event'], { self with log := self.log ++ [event'], reactor := .dispatching event position rest })
    | .dispatching event position (.register handler :: rest) =>
      (self.registerHandler .handler handler).map fun next =>
        ([.registered handler], { next with reactor := .dispatching event position rest })
    | _ => none

/-- **Who registers a handler waits for the reactor** as long as it dispatches an event. -/
theorem waitsFor_reactor {self : ReactorBus H} {event : Event} {position : Nat} {rest : List (HandlerAct H)}
    (hdispatching : self.reactor = .dispatching event position rest) {user : LockUser} (huser : user ≠ .reactor) :
    WaitsFor self.guards (fun _ => some ((), .write)) user .reactor := by
  refine ⟨huser.symm, ((), .write), rfl, ((), .read), ?_, rfl, Or.inl rfl⟩
  unfold guards
  rw [hdispatching]
  exact List.mem_singleton_self _

theorem registerHandler_of_dispatching {self : ReactorBus H} {event : Event} {position : Nat}
    {rest : List (HandlerAct H)} (hdispatching : self.reactor = .dispatching event position rest) {user : LockUser}
    (huser : user ≠ .reactor) (handler : H) : self.registerHandler user handler = none :=
  if_neg ((waitsFor_reactor hdispatching huser).not_free rfl)

end ReactorBus

/-! ## Reading a record -/

/-- What was published. -/
def published (events : List (ReactorEvent H)) : List Event :=
  events.filterMap fun
    | .published event => some event
    | _ => none

/-- Who was registered. -/
def registered (events : List (ReactorEvent H)) : List H :=
  events.filterMap fun
    | .registered handler => some handler
    | _ => none

/-- What was dispatched. -/
def dispatched (events : List (ReactorEvent H)) : List Event :=
  events.filterMap fun
    | .dispatching event => some event
    | _ => none

/-- How many events were missed. -/
def missed (events : List (ReactorEvent H)) : Nat :=
  (events.map fun
    | .lagged missed => missed
    | _ => 0).sum

/-- What the handler at a position was given. -/
def handledBy (position : Nat) (events : List (ReactorEvent H)) : List Event :=
  events.filterMap fun
    | .handled position' event => if position' = position then some event else none
    | _ => none

/-- How many handlers there are, and what was dispatched when there was one at the position. -/
def hear (position : Nat) (s : Nat × List Event) : ReactorEvent H → Nat × List Event
  | .registered _ => (s.1 + 1, s.2)
  | .dispatching event => (s.1, if position < s.1 then s.2 ++ [event] else s.2)
  | _ => s

/-- What was dispatched since there is a handler at the position; in the beginning there are so many. -/
def heard (initial position : Nat) (events : List (ReactorEvent H)) : List Event :=
  (events.foldl (hear position) (initial, [])).2

/-! ## The invariant -/

/-- The event that the reactor has received and not dispatched. -/
def ReactorBus.held (self : ReactorBus H) : List Event :=
  match self.reactor with
  | .received event => [event]
  | _ => []

/-- What the handler at a position still has to be given of the event at hand. -/
def ReactorBus.due (self : ReactorBus H) (handler : H) (position : Nat) : List Event :=
  match self.reactor with
  | .dispatching event position' _ => if position' ≤ position ∧ trait.interested handler event = true then [event] else []
  | _ => []

/-- **The invariant** of the channel: what was published was dispatched, or missed, or is still to come. -/
structure Taking (log : List Event) (s : ReactorBus H × List (ReactorEvent H)) : Prop where
  logged : s.1.log = log ++ published s.2
  le : s.1.rx.next ≤ s.1.log.length
  lt : ∀ i ∈ s.1.rx.taken, i < s.1.rx.next
  ge : ∀ i ∈ s.1.rx.taken, log.length ≤ i
  ordered : s.1.rx.taken.Pairwise (· < ·)
  told : dispatched s.2 ++ s.1.held = s.1.rx.taken.filterMap fun i => s.1.log[i]?
  skipped : log.length + s.1.rx.taken.length + missed s.2 = s.1.rx.next

/-- **The invariant** of the handlers: what was dispatched since there is a handler has been given to it, or will be. -/
structure Handling (handlers : List H) (s : ReactorBus H × List (ReactorEvent H)) : Prop where
  listed : s.1.handlers = handlers ++ registered s.2
  count : ∀ position, (s.2.foldl (hear position) (handlers.length, [])).1 = s.1.handlers.length
  unheard : ∀ position, s.1.handlers.length ≤ position →
    heard handlers.length position s.2 = [] ∧ handledBy position s.2 = []
  given : ∀ position handler, s.1.handlers[position]? = some handler →
    handledBy position s.2 ++ s.1.due trait handler position =
      (heard handlers.length position s.2).filter (trait.interested handler)

section Appending

variable (events : List (ReactorEvent H)) (e : ReactorEvent H)

theorem published_append : published (events ++ [e]) = published events ++ published [e] := List.filterMap_append
theorem registered_append : registered (events ++ [e]) = registered events ++ registered [e] := List.filterMap_append
theorem dispatched_append : dispatched (events ++ [e]) = dispatched events ++ dispatched [e] := List.filterMap_append
theorem handledBy_append (position : Nat) :
    handledBy position (events ++ [e]) = handledBy position events ++ handledBy position [e] := List.filterMap_append

theorem missed_append : missed (events ++ [e]) = missed events + missed [e] := by
  rw [missed, List.map_append, List.sum_append]
  rfl

theorem foldl_hear_append (initial position : Nat) :
    (events ++ [e]).foldl (hear position) (initial, []) =
      hear position (events.foldl (hear position) (initial, [])) e := List.foldl_concat ..

end Appending

section Steps

variable {trait size} {log : List Event} {handlers : List H} {self next : ReactorBus H} {label : ReactorStep H}
  {seen events : List (ReactorEvent H)}

/-- What was taken from the log stays in it. -/
theorem filterMap_getElem?_append {taken : List Nat} (log more : List Event) (h : ∀ i ∈ taken, i < log.length) :
    (taken.filterMap fun i => (log ++ more)[i]?) = taken.filterMap fun i => log[i]? :=
  List.filterMap_congr fun i hi => List.getElem?_append_left (h i hi)

/-- Somebody publishes, and the reactor is where it is. -/
theorem Taking.publish (h : Taking log (self, events)) (event : Event) {reactor : Reactor H}
    (hheld : ReactorBus.held { self with reactor } = self.held) :
    Taking log ({ self with log := self.log ++ [event], reactor }, events ++ [.published event]) := by
  have hlt : ∀ i ∈ self.rx.taken, i < self.log.length := fun i hi => Nat.lt_of_lt_of_le (h.lt i hi) h.le
  refine ⟨?_, ?_, h.lt, h.ge, h.ordered, ?_, ?_⟩
  · show self.log ++ [event] = _
    rw [published_append, ← List.append_assoc, ← h.logged]
    rfl
  · show self.rx.next ≤ (self.log ++ [event]).length
    rw [List.length_append]
    exact Nat.le_trans h.le (Nat.le_add_right _ _)
  · show dispatched (events ++ [.published event]) ++ ReactorBus.held { self with reactor } =
      self.rx.taken.filterMap fun i => (self.log ++ [event])[i]?
    rw [filterMap_getElem?_append _ _ hlt, dispatched_append, hheld, ← h.told]
    exact congrArg (· ++ self.held) (List.append_nil _)
  · rw [missed_append]
    exact h.skipped

/-- The reactor moves, and there is nothing to be seen of it on the channel. -/
theorem Taking.stay (h : Taking log (self, events)) {reactor : Reactor H} {handlers : List H}
    (hpublished : published seen = []) (hmissed : missed seen = 0)
    (hheld : dispatched seen ++ ReactorBus.held { self with reactor } = self.held) :
    Taking log ({ self with handlers, reactor }, events ++ seen) := by
  refine ⟨?_, h.le, h.lt, h.ge, h.ordered, ?_, ?_⟩
  · have happend : published (events ++ seen) = published events ++ published seen := List.filterMap_append
    rw [happend, hpublished, List.append_nil]
    exact h.logged
  · have happend : dispatched (events ++ seen) = dispatched events ++ dispatched seen := List.filterMap_append
    show dispatched (events ++ seen) ++ ReactorBus.held { self with reactor } = _
    rw [happend, List.append_assoc, hheld]
    exact h.told
  · have happend : missed (events ++ seen) = missed events + missed seen := by
      rw [missed, List.map_append, List.sum_append]
      rfl
    show _ + missed (events ++ seen) = _
    rw [happend, hmissed]
    exact h.skipped

/-- **Some events were overwritten**: the reactor jumps over them, and counts them. -/
theorem Taking.lag (h : Taking log (self, events)) (hheld : self.held = []) (hlag : self.rx.next < self.log.length - size) :
    Taking log ({ self with rx := { self.rx with next := self.log.length - size } },
      events ++ [.lagged (self.log.length - size - self.rx.next)]) := by
  refine ⟨?_, Nat.sub_le _ _, fun i hi => Nat.lt_trans (h.lt i hi) hlag, h.ge, h.ordered, ?_, ?_⟩
  · rw [published_append]
    exact h.logged.trans (congrArg _ (List.append_nil _).symm)
  · show dispatched (events ++ _) ++ self.held = _
    rw [dispatched_append, hheld, List.append_nil]
    have htold := h.told
    change dispatched events ++ self.held = _ at htold
    rw [hheld] at htold
    exact htold
  · have hskipped := h.skipped
    change log.length + self.rx.taken.length + missed events = self.rx.next at hskipped
    show log.length + self.rx.taken.length + missed (events ++ _) = self.log.length - size
    have hone : missed [(ReactorEvent.lagged (self.log.length - size - self.rx.next) : ReactorEvent H)] =
        self.log.length - size - self.rx.next := List.sum_singleton
    rw [missed_append, hone]
    omega

/-- **An event is received**: it is at hand, and the last of those that were taken. -/
theorem Taking.receive (h : Taking log (self, events)) (hheld : self.held = []) {event : Event}
    (hget : self.log[self.rx.next]? = some event) :
    Taking log ({ self with
      rx := { self.rx with next := self.rx.next + 1, taken := self.rx.taken ++ [self.rx.next] }
      reactor := .received event }, events) := by
  have hskipped := h.skipped
  change log.length + self.rx.taken.length + missed events = self.rx.next at hskipped
  have htold := h.told
  change dispatched events ++ self.held = _ at htold
  rw [hheld, List.append_nil] at htold
  refine ⟨h.logged, (List.getElem?_eq_some_iff.mp hget).1, fun i hi => ?_, fun i hi => ?_, ?_, ?_, ?_⟩
  · rcases List.mem_append.mp hi with hold | hnew
    · exact Nat.lt_succ_of_lt (h.lt i hold)
    · exact List.mem_singleton.mp hnew ▸ Nat.lt_succ_self _
  · rcases List.mem_append.mp hi with hold | hnew
    · exact h.ge i hold
    · rw [List.mem_singleton.mp hnew, ← hskipped, Nat.add_assoc]
      exact Nat.le_add_right _ _
  · show (self.rx.taken ++ [self.rx.next]).Pairwise (· < ·)
    rw [List.pairwise_append]
    refine ⟨h.ordered, List.pairwise_singleton _ _, fun i hi j hj => ?_⟩
    rw [List.mem_singleton.mp hj]
    exact h.lt i hi
  · show dispatched events ++ [event] = (self.rx.taken ++ [self.rx.next]).filterMap fun i => self.log[i]?
    rw [List.filterMap_append, ← htold, List.filterMap_cons_some hget, List.filterMap_nil]
  · show log.length + (self.rx.taken ++ [self.rx.next]).length + missed events = self.rx.next + 1
    rw [List.length_append, List.length_singleton]
    omega

/-- **One step** on the channel. -/
theorem taking_step (h : Taking log (self, events)) (hstep : self.step trait size label = some (seen, next)) :
    Taking log (next, events ++ seen) := by
  cases label with
  | publish event =>
    obtain ⟨rfl, rfl⟩ := Prod.mk.inj (Option.some.inj hstep)
    exact h.publish event rfl
  | register handler =>
    obtain ⟨next, hregister, heq⟩ := Option.map_eq_some_iff.mp hstep
    obtain ⟨-, heq'⟩ := Option.ite_none_right_eq_some.mp hregister
    cases heq'
    cases heq
    exact h.stay rfl rfl rfl
  | recv =>
    simp only [ReactorBus.step] at hstep
    split at hstep
    · rename_i hlistening
      have hheld : self.held = [] := by rw [ReactorBus.held, hlistening]
      rcases recv_cases size self.log self.rx with ⟨hlag, heq⟩ | heq | ⟨event, hget, heq⟩
      · rw [heq] at hstep
        obtain ⟨rfl, rfl⟩ := Prod.mk.inj (Option.some.inj hstep)
        exact h.lag hheld hlag
      · rw [heq] at hstep
        cases hstep
      · rw [heq] at hstep
        obtain ⟨rfl, rfl⟩ := Prod.mk.inj (Option.some.inj hstep)
        rw [List.append_nil]
        exact h.receive hheld hget
    · cases hstep
  | read =>
    simp only [ReactorBus.step] at hstep
    split at hstep
    · rename_i event hreceived
      obtain ⟨rfl, rfl⟩ := Prod.mk.inj (Option.some.inj hstep)
      exact h.stay rfl rfl (by rw [ReactorBus.held, ReactorBus.held, hreceived]; rfl)
    · cases hstep
  | next acts =>
    simp only [ReactorBus.step] at hstep
    split at hstep
    · rename_i event position hdispatching
      have hheld : self.held = [] := by rw [ReactorBus.held, hdispatching]
      split at hstep
      · split at hstep
        · obtain ⟨rfl, rfl⟩ := Prod.mk.inj (Option.some.inj hstep)
          exact h.stay rfl rfl hheld.symm
        · obtain ⟨rfl, rfl⟩ := Prod.mk.inj (Option.some.inj hstep)
          exact h.stay rfl rfl hheld.symm
      · obtain ⟨rfl, rfl⟩ := Prod.mk.inj (Option.some.inj hstep)
        exact h.stay rfl rfl hheld.symm
    · cases hstep
  | act =>
    simp only [ReactorBus.step] at hstep
    split at hstep
    · rename_i event position event' rest hdispatching
      obtain ⟨rfl, rfl⟩ := Prod.mk.inj (Option.some.inj hstep)
      exact h.publish event' (by rw [ReactorBus.held, ReactorBus.held, hdispatching])
    · rename_i hdispatching
      rw [ReactorBus.registerHandler_of_dispatching hdispatching (by decide)] at hstep
      cases hstep
    · cases hstep

/-- What changes nothing for a handler. -/
structure Silent (seen : List (ReactorEvent H)) : Prop where
  registered : Bootstrap.registered seen = []
  heard : ∀ position s, seen.foldl (hear position) s = s
  handled : ∀ position, handledBy position seen = []

theorem silent_nil : Silent ([] : List (ReactorEvent H)) := ⟨rfl, fun _ _ => rfl, fun _ => rfl⟩

theorem silent_published (event : Event) : Silent [(.published event : ReactorEvent H)] :=
  ⟨rfl, fun _ _ => rfl, fun _ => rfl⟩

theorem silent_lagged (missed : Nat) : Silent [(.lagged missed : ReactorEvent H)] := ⟨rfl, fun _ _ => rfl, fun _ => rfl⟩

/-- The same handlers, and the same is due to them. -/
theorem Handling.stay (h : Handling trait handlers (self, events)) (hsilent : Silent seen)
    (hhandlers : next.handlers = self.handlers)
    (hdue : ∀ position handler, self.handlers[position]? = some handler →
      next.due trait handler position = self.due trait handler position) :
    Handling trait handlers (next, events ++ seen) := by
  have hfoldl : ∀ position, (events ++ seen).foldl (hear position) (handlers.length, []) =
      events.foldl (hear position) (handlers.length, []) := by
    intro position
    rw [List.foldl_append, hsilent.heard]
  have hheard : ∀ position, heard handlers.length position (events ++ seen) = heard handlers.length position events :=
    fun position => congrArg Prod.snd (hfoldl position)
  have hhandled : ∀ position, handledBy position (events ++ seen) = handledBy position events := by
    intro position
    have happend : handledBy position (events ++ seen) = handledBy position events ++ handledBy position seen :=
      List.filterMap_append
    rw [happend, hsilent.handled, List.append_nil]
  refine ⟨?_, fun position => ?_, fun position hle => ?_, fun position handler hget => ?_⟩
  · have happend : registered (events ++ seen) = registered events ++ registered seen := List.filterMap_append
    rw [happend, hsilent.registered, List.append_nil]
    exact hhandlers.trans h.listed
  · rw [hfoldl, hhandlers]
    exact h.count position
  · rw [hheard, hhandled]
    exact h.unheard position (hhandlers ▸ hle)
  · have hget' : self.handlers[position]? = some handler := hhandlers ▸ hget
    show handledBy position (events ++ seen) ++ next.due trait handler position = _
    rw [hheard, hhandled, hdue position handler hget']
    exact h.given position handler hget'

/-- What is heard of an event that is dispatched. -/
theorem Handling.heard_dispatching (h : Handling trait handlers (self, events)) (event : Event) (position : Nat) :
    heard handlers.length position (events ++ [.dispatching event]) =
      if position < self.handlers.length then heard handlers.length position events ++ [event]
      else heard handlers.length position events := by
  rw [heard, foldl_hear_append]
  show (if position < (events.foldl (hear position) (handlers.length, [])).1 then _ else _) = _
  rw [h.count position]
  rfl

/-- **A registration**, while nothing is being dispatched. -/
theorem Handling.register (h : Handling trait handlers (self, events)) (handler : H)
    (hdue : ∀ handler position, self.due trait handler position = []) :
    Handling trait handlers ({ self with handlers := self.handlers ++ [handler] }, events ++ [.registered handler]) := by
  have hheard : ∀ position, heard handlers.length position (events ++ [.registered handler]) =
      heard handlers.length position events := by
    intro position
    rw [heard, foldl_hear_append]
    rfl
  have hhandled : ∀ position, handledBy position (events ++ [.registered handler]) = handledBy position events := by
    intro position
    rw [handledBy_append]
    exact List.append_nil _
  refine ⟨?_, fun position => ?_, fun position hle => ?_, fun position handler' hget => ?_⟩
  · show self.handlers ++ [handler] = _
    rw [registered_append, ← List.append_assoc, ← h.listed]
    rfl
  · show ((events ++ [ReactorEvent.registered handler]).foldl (hear position) (handlers.length, [])).1 =
      (self.handlers ++ [handler]).length
    rw [foldl_hear_append, List.length_append]
    exact congrArg (· + 1) (h.count position)
  · rw [hheard, hhandled]
    refine h.unheard position (Nat.le_trans ?_ hle)
    show self.handlers.length ≤ (self.handlers ++ [handler]).length
    rw [List.length_append]
    exact Nat.le_add_right _ _
  · show handledBy position (events ++ _) ++ self.due trait handler' position = _
    rw [hheard, hhandled, hdue, List.append_nil]
    by_cases hlt : position < self.handlers.length
    · have hgiven := h.given position handler' ((List.getElem?_append_left hlt).symm.trans hget)
      change handledBy position events ++ self.due trait handler' position = _ at hgiven
      rwa [hdue, List.append_nil] at hgiven
    · obtain ⟨hheard', hhandled'⟩ := h.unheard position (Nat.le_of_not_lt hlt)
      rw [hheard', hhandled', List.filter_nil]

/-- **An event is dispatched**: it is due to all who are interested in it. -/
theorem Handling.read (h : Handling trait handlers (self, events)) {event : Event}
    (hreceived : self.reactor = .received event) :
    Handling trait handlers ({ self with reactor := .dispatching event 0 [] }, events ++ [.dispatching event]) := by
  have hhandled : ∀ position, handledBy position (events ++ [.dispatching event]) = handledBy position events := by
    intro position
    rw [handledBy_append]
    exact List.append_nil _
  refine ⟨?_, fun position => ?_, fun position hle => ?_, fun position handler hget => ?_⟩
  · rw [registered_append]
    exact h.listed.trans (congrArg _ (List.append_nil _).symm)
  · rw [foldl_hear_append]
    exact h.count position
  · rw [h.heard_dispatching, hhandled, if_neg (Nat.not_lt_of_le hle)]
    exact h.unheard position hle
  · have hgiven := h.given position handler hget
    change handledBy position events ++ self.due trait handler position = _ at hgiven
    rw [ReactorBus.due, hreceived, List.append_nil] at hgiven
    rw [h.heard_dispatching, hhandled, if_pos (List.getElem?_eq_some_iff.mp hget).1, List.filter_append, ← hgiven]
    refine congrArg (handledBy position events ++ ·) ?_
    simp only [ReactorBus.due, Nat.zero_le, true_and, List.filter_cons, List.filter_nil]

/-- **A handler is given the event at hand.** -/
theorem Handling.handle (h : Handling trait handlers (self, events)) {event : Event} {position : Nat} {handler : H}
    (hdispatching : self.reactor = .dispatching event position []) (hget : self.handlers[position]? = some handler)
    (hinterested : trait.interested handler event = true) (rest : List (HandlerAct H)) :
    Handling trait handlers
      ({ self with reactor := .dispatching event (position + 1) rest }, events ++ [.handled position event]) := by
  have hheard : ∀ k, heard handlers.length k (events ++ [.handled position event]) = heard handlers.length k events := by
    intro k
    rw [heard, foldl_hear_append]
    rfl
  have hhandled : ∀ k, handledBy k (events ++ [.handled position event]) =
      handledBy k events ++ if position = k then [event] else [] := by
    intro k
    rw [handledBy_append]
    refine congrArg (handledBy k events ++ ·) ?_
    show List.filterMap _ [_] = _
    by_cases hk : position = k
    · simp [hk]
    · simp [hk]
  refine ⟨?_, fun k => ?_, fun k hle => ?_, fun k handler' hget' => ?_⟩
  · rw [registered_append]
    exact h.listed.trans (congrArg _ (List.append_nil _).symm)
  · rw [foldl_hear_append]
    exact h.count k
  · have hne : position ≠ k := by
      rintro rfl
      exact absurd (List.getElem?_eq_some_iff.mp hget).1 (Nat.not_lt_of_le hle)
    rw [hheard, hhandled, if_neg hne, List.append_nil]
    exact h.unheard k hle
  · have hgiven := h.given k handler' hget'
    change handledBy k events ++ self.due trait handler' k = _ at hgiven
    rw [hheard, hhandled, ← hgiven, List.append_assoc]
    refine congrArg (handledBy k events ++ ·) ?_
    simp only [ReactorBus.due, hdispatching]
    by_cases hk : position = k
    · subst hk
      obtain rfl : handler = handler' := Option.some.inj (hget.symm.trans hget')
      rw [if_pos rfl, if_neg fun hle => absurd hle.1 (Nat.not_succ_le_self _), if_pos ⟨Nat.le_refl _, hinterested⟩,
        List.append_nil]
    · have hle : position + 1 ≤ k ↔ position ≤ k := by omega
      simp only [if_neg hk, List.nil_append, hle]

/-- **One step** for the handlers. -/
theorem handling_step (h : Handling trait handlers (self, events)) (hstep : self.step trait size label = some (seen, next)) :
    Handling trait handlers (next, events ++ seen) := by
  cases label with
  | publish event =>
    obtain ⟨rfl, rfl⟩ := Prod.mk.inj (Option.some.inj hstep)
    exact h.stay (silent_published event) rfl fun _ _ _ => rfl
  | register handler =>
    obtain ⟨next, hregister, heq⟩ := Option.map_eq_some_iff.mp hstep
    obtain ⟨hfree, heq'⟩ := Option.ite_none_right_eq_some.mp hregister
    cases heq'
    cases heq
    refine h.register handler fun handler' position => ?_
    unfold ReactorBus.due
    split
    · rename_i event position' rest hdispatching
      exact absurd hfree ((ReactorBus.waitsFor_reactor hdispatching (by decide)).not_free rfl)
    · rfl
  | recv =>
    simp only [ReactorBus.step] at hstep
    split at hstep
    · rename_i hlistening
      split at hstep
      · obtain ⟨rfl, rfl⟩ := Prod.mk.inj (Option.some.inj hstep)
        exact h.stay silent_nil rfl fun _ _ _ => by rw [ReactorBus.due, ReactorBus.due, hlistening]
      · obtain ⟨rfl, rfl⟩ := Prod.mk.inj (Option.some.inj hstep)
        exact h.stay (silent_lagged _) rfl fun _ _ _ => rfl
      · cases hstep
    · cases hstep
  | read =>
    simp only [ReactorBus.step] at hstep
    split at hstep
    · rename_i event hreceived
      obtain ⟨rfl, rfl⟩ := Prod.mk.inj (Option.some.inj hstep)
      exact h.read hreceived
    · cases hstep
  | next acts =>
    simp only [ReactorBus.step] at hstep
    split at hstep
    · rename_i event position hdispatching
      split at hstep
      · rename_i handler hget
        split at hstep
        · rename_i hinterested
          obtain ⟨rfl, rfl⟩ := Prod.mk.inj (Option.some.inj hstep)
          exact h.handle hdispatching hget hinterested _
        · rename_i hinterested
          obtain ⟨rfl, rfl⟩ := Prod.mk.inj (Option.some.inj hstep)
          refine h.stay silent_nil rfl fun k handler' hget' => ?_
          simp only [ReactorBus.due, hdispatching]
          by_cases hk : position = k
          · subst hk
            obtain rfl : handler = handler' := Option.some.inj (hget.symm.trans hget')
            rw [if_neg fun hdue => hinterested hdue.2, if_neg fun hdue => hinterested hdue.2]
          · have hle : position + 1 ≤ k ↔ position ≤ k := by omega
            simp only [hle]
      · rename_i hnone
        obtain ⟨rfl, rfl⟩ := Prod.mk.inj (Option.some.inj hstep)
        refine h.stay silent_nil rfl fun k handler' hget' => ?_
        have hlt : k < position :=
          Nat.lt_of_lt_of_le (List.getElem?_eq_some_iff.mp hget').1 (List.getElem?_eq_none_iff.mp hnone)
        simp only [ReactorBus.due, hdispatching]
        rw [if_neg fun hdue => absurd hdue.1 (Nat.not_le_of_lt hlt)]
    · cases hstep
  | act =>
    simp only [ReactorBus.step] at hstep
    split at hstep
    · rename_i event position event' rest hdispatching
      obtain ⟨rfl, rfl⟩ := Prod.mk.inj (Option.some.inj hstep)
      exact h.stay (silent_published event') rfl fun _ _ _ => by rw [ReactorBus.due, ReactorBus.due, hdispatching]
    · rename_i hdispatching
      rw [ReactorBus.registerHandler_of_dispatching hdispatching (by decide)] at hstep
      cases hstep
    · cases hstep

end Steps

/-! ## Whole runs -/

/-- What stands at increasing positions of a list stands in it in this order. -/
theorem filterMap_getElem?_sublist {α : Type} (l : List α) {positions : List Nat} (hordered : positions.Pairwise (· < ·))
    {first : Nat} (hge : ∀ i ∈ positions, first ≤ i) : List.Sublist (positions.filterMap fun i => l[i]?) (l.drop first) := by
  induction positions generalizing first with
  | nil => exact List.nil_sublist _
  | cons i positions ih =>
    obtain ⟨hi, hordered⟩ := List.pairwise_cons.mp hordered
    have hrest := ih hordered hi
    have hfirst : List.Sublist (l.drop i) (l.drop first) := List.drop_sublist_drop_left l (hge i List.mem_cons_self)
    cases hget : l[i]? with
    | none =>
      rw [List.filterMap_cons_none hget]
      exact hrest.trans ((List.drop_sublist_drop_left l (Nat.le_succ i)).trans hfirst)
    | some a =>
      obtain ⟨hlt, rfl⟩ := List.getElem?_eq_some_iff.mp hget
      rw [List.filterMap_cons_some hget]
      refine List.Sublist.trans ?_ hfirst
      rw [List.drop_eq_getElem_cons hlt]
      exact hrest.cons_cons _

/-- Nobody is left out. -/
theorem length_filterMap_getElem? {α : Type} (l : List α) {positions : List Nat} (hlt : ∀ i ∈ positions, i < l.length) :
    (positions.filterMap fun i => l[i]?).length = positions.length := by
  induction positions with
  | nil => rfl
  | cons i positions ih =>
    have hi := hlt i List.mem_cons_self
    have hget : l[i]? = some l[i] := List.getElem?_eq_getElem hi
    rw [List.filterMap_cons_some hget, List.length_cons, List.length_cons,
      ih fun j hj => hlt j (List.mem_cons_of_mem i hj)]

/-- Who was there from the beginning hears everything. -/
theorem heard_of_lt {initial position : Nat} (hlt : position < initial) (events : List (ReactorEvent H)) :
    heard initial position events = dispatched events := by
  have hgo : ∀ (events : List (ReactorEvent H)) (s : Nat × List Event), position < s.1 →
      (events.foldl (hear position) s).2 = s.2 ++ dispatched events := by
    intro events
    induction events with
    | nil => exact fun s _ => (List.append_nil _).symm
    | cons e events ih =>
      intro s hs
      rw [List.foldl_cons]
      cases e with
      | registered handler => exact ih (s.1 + 1, s.2) (Nat.lt_succ_of_lt hs)
      | dispatching event =>
        have hhear : hear position s (.dispatching event : ReactorEvent H) = (s.1, s.2 ++ [event]) := by
          show (s.1, if position < s.1 then _ else _) = _
          rw [if_pos hs]
        rw [hhear, ih (s.1, s.2 ++ [event]) hs, List.append_assoc]
        rfl
      | published event => exact ih s hs
      | lagged missed => exact ih s hs
      | handled position' event => exact ih s hs
  exact (hgo events (initial, []) hlt).trans (List.nil_append _)

/-- What the reactor has done. -/
structure Dispatches (trait : EventHandler H) (handlers : List H) (s : ReactorBus H × List (ReactorEvent H)) : Prop where
  /-- Events are dispatched once each, in the order of the bus. -/
  ordered : List.Sublist (dispatched s.2) (published s.2)
  /-- What was published was dispatched, or missed, or is at hand, or is still to come. -/
  counted : (dispatched s.2).length + missed s.2 + s.1.held.length + (s.1.log.length - s.1.rx.next) =
    (published s.2).length
  /-- A handler is given what was dispatched since it was registered and is of its categories, ... -/
  given : ∀ position handler, s.1.handlers[position]? = some handler →
    handledBy position s.2 <+: (heard handlers.length position s.2).filter (trait.interested handler)
  /-- ... and all of it when the reactor waits for the next event. -/
  rest : s.1.reactor = .listening → ∀ position handler, s.1.handlers[position]? = some handler →
    handledBy position s.2 = (heard handlers.length position s.2).filter (trait.interested handler)
  /-- If nothing was missed and nothing is to come, those who were there from the beginning have been given all. -/
  complete : s.1.reactor = .listening → missed s.2 = 0 → s.1.rx.next = s.1.log.length →
    ∀ position handler, handlers[position]? = some handler →
      handledBy position s.2 = (published s.2).filter (trait.interested handler)

/-- **Handlers are given their events**, in whatever order everybody proceeds. -/
theorem dispatches_run (trait : EventHandler H) (size : Nat) (log : List Event) (handlers : List H)
    (steps : List (ReactorStep H)) (s : ReactorBus H × List (ReactorEvent H))
    (hrun : run (noted (ReactorBus.step trait size)) (.spawn log handlers, []) steps = some s) :
    Dispatches trait handlers s := by
  have hstep : ∀ (s : ReactorBus H × List (ReactorEvent H)) label s',
      Taking log s ∧ Handling trait handlers s → noted (ReactorBus.step trait size) s label = some s' →
        Taking log s' ∧ Handling trait handlers s' := by
    rintro ⟨self, events⟩ label s' ⟨htaking, hhandling⟩ hstep
    obtain ⟨seen, next, hnext, rfl⟩ := noted_eq_some.mp hstep
    exact ⟨taking_step htaking hnext, handling_step hhandling hnext⟩
  have htaking : Taking log (ReactorBus.spawn log handlers, []) :=
    ⟨(List.append_nil _).symm, Nat.le_refl _, fun _ h => absurd h List.not_mem_nil, fun _ h => absurd h List.not_mem_nil,
      List.Pairwise.nil, rfl, rfl⟩
  have hhandling : Handling trait handlers (ReactorBus.spawn log handlers, []) :=
    ⟨(List.append_nil _).symm, fun _ => rfl, fun _ _ => ⟨rfl, rfl⟩, fun _ _ _ => rfl⟩
  obtain ⟨htaking, hhandling⟩ := run_inv hstep ⟨htaking, hhandling⟩ hrun
  have hdrop : s.1.log.drop log.length = published s.2 := by
    rw [htaking.logged, List.drop_left]
  have hsublist : List.Sublist (dispatched s.2 ++ s.1.held) (published s.2) := by
    rw [htaking.told, ← hdrop]
    exact filterMap_getElem?_sublist _ htaking.ordered htaking.ge
  have hlength : (dispatched s.2).length + s.1.held.length = s.1.rx.taken.length := by
    rw [← List.length_append, htaking.told]
    exact length_filterMap_getElem? _ fun i hi => Nat.lt_of_lt_of_le (htaking.lt i hi) htaking.le
  have htotal : s.1.log.length = log.length + (published s.2).length := by
    rw [htaking.logged, List.length_append]
  have hskipped := htaking.skipped
  have hle := htaking.le
  have hrest : s.1.reactor = .listening → ∀ position handler, s.1.handlers[position]? = some handler →
      handledBy position s.2 = (heard handlers.length position s.2).filter (trait.interested handler) := by
    intro hlistening position handler hget
    have hgiven := hhandling.given position handler hget
    rwa [ReactorBus.due, hlistening, List.append_nil] at hgiven
  refine ⟨(List.sublist_append_left _ _).trans hsublist, by omega, fun position handler hget => ?_, hrest,
    fun hlistening hmissed hnext position handler hget => ?_⟩
  · rw [← hhandling.given position handler hget]
    exact List.prefix_append _ _
  · have hlt : position < handlers.length := (List.getElem?_eq_some_iff.mp hget).1
    have hget' : s.1.handlers[position]? = some handler := by
      rw [hhandling.listed, List.getElem?_append_left hlt]
      exact hget
    have hheld : s.1.held = [] := by rw [ReactorBus.held, hlistening]
    rw [hheld, List.append_nil] at hsublist
    rw [hheld, List.length_nil] at hlength
    rw [hrest hlistening position handler hget', heard_of_lt hlt, hsublist.eq_of_length (by omega)]

/-- A handler of all events, and one of the listeners'. -/
def twoHandlers : EventHandler Bool where
  categories
    | true => []
    | false => [.listener]

/-- The second handler comes when the first has been given an event, in answer to which it has published another. -/
def secondComes : List (ReactorStep Bool) :=
  [.publish .starting, .recv, .read, .next [.publish .ready], .act, .next [], .register false,
    .recv, .read, .next [], .next [], .next [],
    .publish (.listenerStarted "smpp" "0.0.0.0:2775"), .recv, .read, .next [], .next []]

theorem dispatches_secondComes :
    ∃ s, run (noted (ReactorBus.step twoHandlers 4)) (.spawn [] [true], []) secondComes = some s ∧
      Dispatches twoHandlers [true] s := by
  have hsome : (run (noted (ReactorBus.step twoHandlers 4)) (.spawn [] [true], []) secondComes).isSome = true := by
    decide +kernel
  obtain ⟨s, hrun⟩ := Option.isSome_iff_exists.mp hsome
  exact ⟨s, hrun, dispatches_run twoHandlers 4 [] [true] secondComes s hrun⟩

/-! ## Handlers that register handlers -/

/-- All that is left when a handler registers another one: the two wait for each other. -/
theorem step_of_registering {trait : EventHandler H} {size : Nat} {self next : ReactorBus H} {label : ReactorStep H}
    {seen : List (ReactorEvent H)} {event : Event} {position : Nat} {handler : H} {rest : List (HandlerAct H)}
    (hstep : self.step trait size label = some (seen, next))
    (hregister : self.reactor = .dispatching event position (.register handler :: rest)) :
    ∃ event', seen = [.published event'] ∧ next = { self with log := self.log ++ [event'] } := by
  cases label with
  | publish event' =>
    obtain ⟨rfl, rfl⟩ := Prod.mk.inj (Option.some.inj hstep)
    exact ⟨event', rfl, rfl⟩
  | register handler' =>
    obtain ⟨t, ht, -⟩ := Option.map_eq_some_iff.mp hstep
    rw [ReactorBus.registerHandler_of_dispatching hregister (by decide)] at ht
    cases ht
  | act =>
    simp only [ReactorBus.step, hregister] at hstep
    obtain ⟨t, ht, -⟩ := Option.map_eq_some_iff.mp hstep
    rw [ReactorBus.registerHandler_of_dispatching hregister (by decide)] at ht
    cases ht
  | _ =>
    simp only [ReactorBus.step, hregister] at hstep
    cases hstep

/-- **The reactor is stuck** when a handler registers another one: whatever happens later, no event is dispatched or
    handled any more, and nobody can be registered. -/
theorem stuck_run (trait : EventHandler H) (size : Nat) (self : ReactorBus H) (events : List (ReactorEvent H))
    (event : Event) (position : Nat) (handler : H) (rest : List (HandlerAct H))
    (hregister : self.reactor = .dispatching event position (.register handler :: rest)) (steps : List (ReactorStep H))
    (s : ReactorBus H × List (ReactorEvent H))
    (hrun : run (noted (ReactorBus.step trait size)) (self, events) steps = some s) :
    ∃ more : List Event, s.2 = events ++ more.map .published ∧ s.1 = { self with log := self.log ++ more } := by
  have hstep : ∀ (s : ReactorBus H × List (ReactorEvent H)) label s',
      (∃ more : List Event, s.2 = events ++ more.map .published ∧ s.1 = { self with log := self.log ++ more }) →
        noted (ReactorBus.step trait size) s label = some s' →
          ∃ more : List Event, s'.2 = events ++ more.map .published ∧ s'.1 = { self with log := self.log ++ more } := by
    rintro ⟨_, _⟩ label s' ⟨more, rfl, rfl⟩ hstep
    obtain ⟨seen, next, hnext, rfl⟩ := noted_eq_some.mp hstep
    obtain ⟨event', rfl, rfl⟩ := step_of_registering hnext hregister
    refine ⟨more ++ [event'], ?_, ?_⟩
    · rw [List.map_append, ← List.append_assoc]
      rfl
    · rw [← List.append_assoc]
  refine run_inv hstep ⟨[], (List.append_nil _).symm, ?_⟩ hrun
  rw [List.append_nil]

/-- The handler of all events registers the other one. -/
def blocked : ReactorBus Bool × List (ReactorEvent Bool) :=
  (⟨[.starting], ⟨0, 1, [0]⟩, [true], .dispatching .starting 1 [.register false]⟩,
    [.published .starting, .dispatching .starting, .handled 0 .starting])

theorem stuck_blocked :
    run (noted (ReactorBus.step twoHandlers 4)) (.spawn [] [true], [])
        [.publish .starting, .recv, .read, .next [.register false]] = some blocked ∧
      ∃ s, run (noted (ReactorBus.step twoHandlers 4)) blocked [.publish .ready] = some s ∧
        ∃ more : List Event, s.2 = blocked.2 ++ more.map .published ∧
          s.1 = { blocked.1 with log := blocked.1.log ++ more } :=
  ⟨rfl, _, rfl, stuck_run twoHandlers 4 blocked.1 blocked.2 .starting 1 false [] rfl [.publish .ready] _ rfl⟩

end Smppd.Bootstrap
