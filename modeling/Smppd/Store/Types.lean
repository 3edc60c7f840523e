/-
  The MESSAGE RECORD of the gateway (`src/store/types.rs`): identifiers, states, the event history
  and the transition methods `mark_in_flight`, `mark_delivered`, `mark_failed`, `mark_retry`,
  `mark_expired`, `reset_to_pending` and `record_*`.

  Conventions of the embedding:

  * TIME.  `Instant` (monotonic clock) and `SystemTime` (wall clock) are integers counting
    nanoseconds, `Duration` is a natural number of nanoseconds.  A method that asks the clock takes
    the reading as an argument `clock`; one call reads it once.
  * INTEGERS.  `u8`, `u32` and `u64` fields are `UInt8`, `UInt32` and `UInt64`, so `attempts += 1`
    wraps as it does in a release build.
  * IDENTIFIERS.  `MESSAGE_COUNTER` is modelled by the number of `fetch_add`s so far; the value the
    next one returns is that number modulo `2^64`.  `MessageId::new` is the ONE allocator of message
    ids: stored messages and envelopes both draw from it.

  No transition method looks at the current state before it overwrites it — only
  `reset_to_pending` does.  What a transition may be applied to is the callers' business, and is
  where the later modules spend their effort.
-/
import Mathlib.Data.UInt

namespace Smppd.Store

/-! ## Clocks -/

/-- A reading of the monotonic clock, in nanoseconds. -/
abbrev Instant := Int

/-- A reading of the wall clock, in nanoseconds since `UNIX_EPOCH`. -/
abbrev SystemTime := Int

/-- The first `Instant` there is: it counts its seconds in an `i64`. -/
def earliestInstant : Instant := -(2 ^ 63 * 1000000000)

/-- A length of time, in nanoseconds. -/
abbrev Duration := Nat

/-- `Duration::from_secs`. -/
def fromSecs (n : Nat) : Duration := n * 1000000000

/-- `Duration::as_millis`. -/
def asMillis (d : Duration) : Nat := d / 1000000

/-- `Duration::from_millis`. -/
def fromMillis (n : Nat) : Duration := n * 1000000

/-- What `Instant::now()` and `SystemTime::now()` return during one call. -/
structure Clock where
  now : Instant
  wall : SystemTime

/-- `Instant - Duration`; `none` is the panic where there is no such instant. -/
def instantSub (t : Instant) (d : Duration) : Option Instant :=
  if earliestInstant ≤ t - d then some (t - d) else none

/-- `Instant::elapsed`, which saturates at zero. -/
def elapsed (clock : Clock) (t : Instant) : Duration := (clock.now - t).toNat

/-! ## Identifiers -/

/-- Unique message identifier. -/
structure MessageId where
  val : UInt64
  deriving DecidableEq

/-- `MessageId::new` at the given value of the global counter, with the counter afterwards. -/
def MessageId.new (counter : Nat) : MessageId × Nat := (⟨UInt64.ofNat counter⟩, counter + 1)

/-- `Display for MessageId`. -/
def MessageId.toText (id : MessageId) : String := "msg_" ++ toString id.val.toNat

/-- Below `2^64` allocations the counter value can be read back from the id. -/
theorem MessageId.new_toNat {counter : Nat} (h : counter < 2 ^ 64) :
    (MessageId.new counter).1.val.toNat = counter :=
  UInt64.toNat_ofNat_of_lt' h

/-- Identifier of a recorded routing decision. -/
structure DecisionId where
  val : UInt64
  deriving DecidableEq

/-! ## States and priorities -/

/-- Message state in the store. -/
inductive MessageState where
  | pending
  | inFlight
  | delivered
  | failed
  | expired
  | retrying
  deriving DecidableEq

/-- `MessageState::is_terminal`. -/
def MessageState.isTerminal : MessageState → Bool
  | .delivered | .failed | .expired => true
  | _ => false

/-- `MessageState as u8`. -/
def MessageState.code : MessageState → UInt8
  | .pending => 0
  | .inFlight => 1
  | .delivered => 2
  | .failed => 3
  | .expired => 4
  | .retrying => 5

/-- Message priority. -/
inductive Priority where
  | low
  | normal
  | high
  | critical
  deriving DecidableEq

/-- `Priority as u8`. -/
def Priority.code : Priority → UInt8
  | .low => 0
  | .normal => 1
  | .high => 2
  | .critical => 3

/-! ## The event history -/

/-- Type of event that occurred. -/
inductive EventType where
  | received (systemId : String) (sequenceNumber : UInt32)
  | routeDecision (decisionId : DecisionId) (route cluster : String) (alternatives : List String)
  | loadBalanceDecision (decisionId : DecisionId) (endpoint cluster : String)
      (alternatives : List String)
  | submitted (attempt : UInt32) (endpoint cluster : String)
  | response (commandStatus : UInt32) (messageId : Option String) (latencyUs : UInt64)
  | deliveryReceipt (state : String) (errorCode : Option UInt32)
  | retryScheduled (delayMs : UInt64) (reason : String)
  | fallback (decisionId : DecisionId) (fromCluster toCluster : String) (remaining : List String)
  | stateChange (from_ to_ : MessageState)
  | expired
  | pruned

/-- Event that occurred during message processing. -/
structure MessageEvent where
  timestamp : Instant
  wallTime : SystemTime
  eventType : EventType

/-- `MessageEvent::new`. -/
def MessageEvent.new (clock : Clock) (e : EventType) : MessageEvent := ⟨clock.now, clock.wall, e⟩

/-! ## The stored message -/

/-- A stored message. -/
structure StoredMessage where
  id : MessageId
  state : MessageState
  priority : Priority
  source : String
  destination : String
  shortMessage : List UInt8
  dataCoding : UInt8
  esmClass : UInt8
  registeredDelivery : UInt8
  serviceType : Option String
  senderId : Option String
  systemId : String
  sequenceNumber : UInt32
  smscMessageId : Option String
  route : Option String
  cluster : Option String
  endpoint : Option String
  attempts : UInt32
  maxAttempts : UInt32
  ttl : Duration
  createdAt : Instant
  createdTime : SystemTime
  updatedAt : Instant
  retryAt : Option Instant
  lastErrorCode : Option UInt32
  lastError : Option String
  events : List MessageEvent

namespace StoredMessage

/-- `StoredMessage::new`: a pending message under a fresh id, and the id counter afterwards. -/
def new (clock : Clock) (counter : Nat) (source destination : String) (shortMessage : List UInt8)
    (systemId : String) (sequenceNumber : UInt32) : StoredMessage × Nat :=
  let receivedEvent := MessageEvent.new clock (.received systemId sequenceNumber)
  ({ id := (MessageId.new counter).1
     state := .pending
     priority := .normal
     source := source
     destination := destination
     shortMessage := shortMessage
     dataCoding := 0
     esmClass := 0
     registeredDelivery := 0
     serviceType := none
     senderId := none
     systemId := systemId
     sequenceNumber := sequenceNumber
     smscMessageId := none
     route := none
     cluster := none
     endpoint := none
     attempts := 0
     maxAttempts := 3
     ttl := fromSecs 3600
     createdAt := clock.now
     createdTime := clock.wall
     updatedAt := clock.now
     retryAt := none
     lastErrorCode := none
     lastError := none
     events := [receivedEvent] }, (MessageId.new counter).2)

/-- The message the store's own tests submit, with the id drawn at `counter`. -/
def sample (counter : Nat) : StoredMessage :=
  (new ⟨0, 0⟩ counter "+258841234567" "+258821234567" [72, 101, 108, 108, 111] "client1" 1).1

/-- `with_data_coding`. -/
def withDataCoding (m : StoredMessage) (dc : UInt8) : StoredMessage := { m with dataCoding := dc }

/-- `with_esm_class`. -/
def withEsmClass (m : StoredMessage) (ec : UInt8) : StoredMessage := { m with esmClass := ec }

/-- `with_registered_delivery`. -/
def withRegisteredDelivery (m : StoredMessage) (rd : UInt8) : StoredMessage :=
  { m with registeredDelivery := rd }

/-- `is_expired`. -/
def isExpired (clock : Clock) (m : StoredMessage) : Bool := m.ttl < elapsed clock m.createdAt

/-- `can_retry`. -/
def canRetry (clock : Clock) (m : StoredMessage) : Bool :=
  m.attempts < m.maxAttempts && !m.isExpired clock

/-- `add_event`. -/
def addEvent (clock : Clock) (e : EventType) (m : StoredMessage) : StoredMessage :=
  { m with events := m.events ++ [MessageEvent.new clock e], updatedAt := clock.now }

/-! ## The transition methods

  Each ends with "if the state is not what it was, push a `StateChange`". -/

/-- The history entry of a transition, which is none when the state stays. -/
def stateChange (clock : Clock) (old new : MessageState) : List MessageEvent :=
  if old ≠ new then [MessageEvent.new clock (.stateChange old new)] else []

/-- `mark_in_flight`. -/
def markInFlight (clock : Clock) (cluster endpoint : String) (m : StoredMessage) :
    StoredMessage :=
  { m with
    state := .inFlight
    cluster := some cluster
    endpoint := some endpoint
    attempts := m.attempts + 1
    updatedAt := clock.now
    events := m.events ++ [MessageEvent.new clock (.submitted (m.attempts + 1) endpoint cluster)]
      ++ stateChange clock m.state .inFlight }

/-- `record_response`. -/
def recordResponse (clock : Clock) (commandStatus : UInt32) (messageId : Option String)
    (latencyUs : UInt64) (m : StoredMessage) : StoredMessage :=
  m.addEvent clock (.response commandStatus messageId latencyUs)

/-- `mark_delivered`. -/
def markDelivered (clock : Clock) (smscMessageId : String) (m : StoredMessage) : StoredMessage :=
  { m with
    state := .delivered
    smscMessageId := some smscMessageId
    updatedAt := clock.now
    lastError := none
    lastErrorCode := none
    events := m.events ++ stateChange clock m.state .delivered }

/-- `mark_failed`. -/
def markFailed (clock : Clock) (errorCode : Option UInt32) (error : String) (m : StoredMessage) :
    StoredMessage :=
  { m with
    state := .failed
    lastErrorCode := errorCode
    lastError := some error
    updatedAt := clock.now
    events := m.events ++ stateChange clock m.state .failed }

/-- `mark_retry`.  The attempt counter is NOT touched: only `mark_in_flight` advances it. -/
def markRetry (clock : Clock) (delay : Duration) (errorCode : Option UInt32) (error : String)
    (m : StoredMessage) : StoredMessage :=
  { m with
    state := .retrying
    retryAt := some (clock.now + delay)
    lastErrorCode := errorCode
    lastError := some error
    updatedAt := clock.now
    events := m.events
      ++ [MessageEvent.new clock (.retryScheduled (UInt64.ofNat (asMillis delay)) error)]
      ++ stateChange clock m.state .retrying }

/-- `mark_expired`. -/
def markExpired (clock : Clock) (m : StoredMessage) : StoredMessage :=
  { m with
    state := .expired
    updatedAt := clock.now
    events := m.events ++ [MessageEvent.new clock .expired] ++ stateChange clock m.state .expired }

/-- `reset_to_pending`. -/
def resetToPending (clock : Clock) (m : StoredMessage) : StoredMessage :=
  if m.state = .retrying then
    { m with
      state := .pending
      retryAt := none
      updatedAt := clock.now
      events := m.events ++ [MessageEvent.new clock (.stateChange m.state .pending)] }
  else m

/-- `record_route_decision`. -/
def recordRouteDecision (clock : Clock) (decisionId : DecisionId) (route cluster : String)
    (alternatives : List String) (m : StoredMessage) : StoredMessage :=
  { m with route := some route, cluster := some cluster }.addEvent clock
    (.routeDecision decisionId route cluster alternatives)

/-- `record_lb_decision`. -/
def recordLbDecision (clock : Clock) (decisionId : DecisionId) (endpoint cluster : String)
    (alternatives : List String) (m : StoredMessage) : StoredMessage :=
  { m with endpoint := some endpoint }.addEvent clock
    (.loadBalanceDecision decisionId endpoint cluster alternatives)

/-- `record_fallback`. -/
def recordFallback (clock : Clock) (decisionId : DecisionId) (fromCluster toCluster : String)
    (remaining : List String) (m : StoredMessage) : StoredMessage :=
  { m with cluster := some toCluster }.addEvent clock (.fallback decisionId fromCluster toCluster remaining)

/-- `record_delivery_receipt`. -/
def recordDeliveryReceipt (clock : Clock) (state : String) (errorCode : Option UInt32)
    (m : StoredMessage) : StoredMessage :=
  m.addEvent clock (.deliveryReceipt state errorCode)

end StoredMessage

/-! ## Queries -/

/-- Query filter for messages. -/
structure MessageQuery where
  state : Option MessageState := none
  systemId : Option String := none
  destinationPrefix : Option String := none
  cluster : Option String := none
  createdAfter : Option Instant := none
  limit : Option Nat := none

/-- `MessageQuery::with_state` followed by `with_limit` on a new query. -/
def MessageQuery.byState (state : MessageState) (limit : Nat) : MessageQuery :=
  { state := some state, limit := some limit }

end Smppd.Store
