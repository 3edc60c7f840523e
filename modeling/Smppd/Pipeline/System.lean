/-
  The PIPELINE as a whole (`src/pipeline/mod.rs`): sessions, the three processors and any number of
  forward tasks around one bus.

  The bus is the list of everything that was published, in order; a subscription is a position in it.
  So every event reaches every processor exactly once, in the order of publication.  A step is a
  submission by a session, an event of some other component, a processor taking its next event, the
  forwarder obtaining a permit, or ONE call of one of the running bodies.

  `job` and `finished` only keep the books: which envelope a body was given, and which bodies have
  returned.
-/
import Smppd.Lib.Machine
import Smppd.Pipeline.Processors

set_option linter.unusedVariables false

namespace Smppd.Pipeline

open Smppd.Store Smppd.Gateway Smppd.Bootstrap Prog

/-! ## The state -/

/-- The three processors that consume the message flow. -/
inductive Processor where
  | filter
  | router
  | forwarder
  deriving DecidableEq

/-- Running bodies: the filter and the router work on one message at a time, the forwarder spawns. -/
inductive Tid where
  | filter
  | router
  | forward (n : Nat)
  deriving DecidableEq

/-- What a `MessageRouted` event tells the forwarder. -/
structure Job where
  envelope : MessageEnvelope
  clusterName : String
  fallbackClusters : List String

/-- The shared state; `world.sent` is everything published on the bus. -/
structure Shared (S : Type) where
  world : World S Event
  /-- How far each processor has read. -/
  seen : Processor → Nat
  /-- The event the forwarder has taken and waits for a permit with. -/
  held : Option Job
  /-- The number of forward tasks spawned. -/
  next : Nat
  job : Tid → Option MessageEnvelope
  finished : List (Tid × MessageEnvelope)

/-- The shared state and what is left of each body. -/
abbrev Config (S : Type) := Pool (Op Event) Op.Res Tid (Shared S)

variable {S : Type} [Storage S]

/-- A pipeline that has just been started. -/
def boot (storage : S) : Config S :=
  ⟨⟨⟨storage, 0, []⟩, fun _ => 0, none, 0, fun _ => none, []⟩, fun _ => .ret ()⟩

/-! ## Steps -/

/-- The events of the message flow: a session publishes the first, the processors the others, and
    nobody else does. -/
def flows : Event → Bool
  | .messageSubmitRequest _ | .messageAccepted _ | .messageRouted .. | .responseReady _ => true
  | _ => false

/-- What can happen next. -/
inductive Label where
  /-- A session builds an envelope and publishes it. -/
  | submit (clock : Clock) (sessionId : SessionId) (sequenceNumber : UInt32) (systemId : String)
      (submitSm : SubmitSm)
  /-- Some other component publishes an event. -/
  | other (event : Event)
  /-- A processor takes the next event of its subscription. -/
  | recv (p : Processor)
  /-- The forwarder obtains a permit and spawns a task. -/
  | spawn
  /-- A body makes its next call. -/
  | advance (t : Tid) (env : Env)

/-- Everything published so far. -/
def Shared.log (s : Shared S) : List Event := s.world.sent

/-- Publish an event. -/
def Shared.publish (s : Shared S) (event : Event) : Shared S :=
  { s with world := { s.world with sent := s.world.sent ++ [event] } }

/-- A session submits a message: `MessageEnvelope::new`, then `publish`. -/
def Shared.submit (s : Shared S) (clock : Clock) (sessionId : SessionId) (sequenceNumber : UInt32)
    (systemId : String) (submitSm : SubmitSm) : Shared S :=
  let r := MessageEnvelope.new clock s.world.counter sessionId sequenceNumber systemId submitSm
  { s with world := { s.world with
    counter := r.2
    sent := s.world.sent ++ [.messageSubmitRequest r.1] } }

/-- The state after a processor has read one event. -/
def Shared.advanceSeen (s : Shared S) (p : Processor) : Shared S :=
  { s with seen := Function.update s.seen p (s.seen p + 1) }

/-- One call, on the shared state. -/
def call : Handler (Op Event) Op.Res Env (Shared S) := fun env op s =>
  ((handle env op s.world).1, { s with world := (handle env op s.world).2 })

/-- Whether the processor is at its `recv`. -/
def listening (c : Config S) : Processor → Bool
  | .filter => idle (c.task .filter)
  | .router => idle (c.task .router)
  | .forwarder => c.state.held.isNone

/-- Give an envelope to a body. -/
def begin (c : Config S) (t : Tid) (envelope : MessageEnvelope) (body : Body Event Unit) :
    Config S :=
  ⟨{ c.state with job := Function.update c.state.job t (some envelope) },
    Function.update c.task t body⟩

/-- The `match` of a processor's loop on the event it has received.  (The forwarder's answer to
    `MessageRetryReady` is `handle_retry`, which does nothing.) -/
def dispatch (c : Config S) : Processor → Event → Config S
  | .filter, .messageSubmitRequest envelope =>
    begin c .filter envelope (FilterProcessor.processMessage envelope)
  | .router, .messageAccepted envelope =>
    begin c .router envelope (RouterProcessor.routeMessage envelope)
  | .forwarder, .messageRouted envelope _ clusterName fallbackClusters =>
    { c with state := { c.state with held := some ⟨envelope, clusterName, fallbackClusters⟩ } }
  | _, _ => c

/-- The number of permits in use. -/
def running (c : Config S) : Nat :=
  (List.range c.state.next).countP fun n => !idle (c.task (.forward n))

/-- Enter a body that has returned into the books. -/
def bookkeep (c : Config S) (t : Tid) : Config S :=
  match idle (c.task t), c.state.job t with
  | true, some envelope =>
    { c with state := { c.state with finished := c.state.finished ++ [(t, envelope)] } }
  | _, _ => c

/-- One step of the pipeline; `concurrency` is the number of permits. -/
def step (concurrency : Nat) (c : Config S) : Label → Option (Config S)
  | .submit clock sessionId sequenceNumber systemId submitSm =>
    some { c with state := c.state.submit clock sessionId sequenceNumber systemId submitSm }
  | .other event => if flows event then none else some { c with state := c.state.publish event }
  | .recv p =>
    if listening c p then
      c.state.log[c.state.seen p]?.map fun event =>
        dispatch { c with state := c.state.advanceSeen p } p event
    else none
  | .spawn =>
    if running c < concurrency then
      c.state.held.map fun job =>
        begin { c with state := { c.state with held := none, next := c.state.next + 1 } }
          (.forward c.state.next) job.envelope
          (ForwarderProcessor.forwardMessage job.envelope job.clusterName job.fallbackClusters)
    else none
  | .advance t env => (c.advance call t env).map fun c' => bookkeep c' t

/-! ## Reading a state -/

/-- The envelope an event brings to a processor. -/
def Processor.takes : Processor → Event → Option MessageEnvelope
  | .filter, .messageSubmitRequest e => some e
  | .router, .messageAccepted e => some e
  | .forwarder, .messageRouted e _ _ _ => some e
  | _, _ => none

/-- An event of another component brings nothing. -/
theorem takes_of_not_flows {ev : Event} (h : flows ev = false) (p : Processor) : p.takes ev = none := by
  cases p <;> cases ev <;> first | rfl | cases h

/-- The envelopes published as `MessageSubmitRequest`. -/
def submitted (s : Shared S) : List MessageEnvelope := s.log.filterMap Processor.filter.takes

/-- Nothing is pending and nothing is running. -/
structure Quiescent (c : Config S) : Prop where
  read : ∀ p, c.state.seen p = c.state.log.length
  held : c.state.held = none
  idle : ∀ t, c.task t = .ret ()

end Smppd.Pipeline
