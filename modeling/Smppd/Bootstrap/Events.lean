/-
  The EVENTS of the bus (`src/bootstrap/events.rs`).

  The stages of the message pipeline talk to each other only through events: a session publishes
  `MessageSubmitRequest`, the filter answers with `MessageAccepted` or a rejection, the router with
  `MessageRouted` or a failure, the forwarder with the outcome, and each of them ends the work on a
  message with one `ResponseReady` when it does not hand it on.

  The payload of `ConfigReloaded` and the three numbers of `ThroughputSnapshot` are read by nobody
  here and left out.
-/
import Smppd.Gateway.Calls

namespace Smppd.Bootstrap

open Smppd.Store Smppd.Gateway

/-! ## Envelopes -/

/-- Unique session identifier for routing responses back. -/
structure SessionId where
  val : UInt64
  deriving DecidableEq

/-- Message envelope for event-driven processing. -/
structure MessageEnvelope where
  messageId : MessageId
  sessionId : SessionId
  sequenceNumber : UInt32
  systemId : String
  submitSm : SubmitSm
  receivedAt : Instant

/-- `MessageEnvelope::new`: draws an id, and returns the counter after it. -/
def MessageEnvelope.new (clock : Clock) (counter : Nat) (sessionId : SessionId)
    (sequenceNumber : UInt32) (systemId : String) (submitSm : SubmitSm) : MessageEnvelope × Nat :=
  let r := MessageId.new counter
  (⟨r.1, sessionId, sequenceNumber, systemId, submitSm, clock.now⟩, r.2)

/-- Response envelope for routing responses back to sessions. -/
structure ResponseEnvelope where
  sessionId : SessionId
  sequenceNumber : UInt32
  messageId : String
  commandStatus : UInt32
  deriving DecidableEq

/-- `ResponseEnvelope::success`. -/
def ResponseEnvelope.success (sessionId : SessionId) (sequenceNumber : UInt32) (messageId : String) :
    ResponseEnvelope := ⟨sessionId, sequenceNumber, messageId, 0⟩

/-- `ResponseEnvelope::error`. -/
def ResponseEnvelope.failure (sessionId : SessionId) (sequenceNumber : UInt32) (messageId : String)
    (status : UInt32) : ResponseEnvelope := ⟨sessionId, sequenceNumber, messageId, status⟩

/-! ## Events -/

/-- Storage event for reactive notifications. -/
inductive StorageEvent where
  | messageStored (id : MessageId)
  | stateChanged (id : MessageId) (oldState newState : String)
  | messageDeleted (id : MessageId)
  | maintenanceCompleted (expired pruned : UInt64)

/-- Internal event types for component communication. -/
inductive Event where
  -- lifecycle
  | configReloaded
  | starting
  | ready
  | shutdownStarted
  | drainStarted
  | shutdownComplete
  -- listeners and clusters
  | listenerStarted (name address : String)
  | listenerStopped (name : String)
  | clusterHealthChanged (name : String) (healthyEndpoints totalEndpoints : Nat)
  | endpointUp (cluster endpoint : String)
  | endpointDown (cluster endpoint reason : String)
  | circuitBreakerOpened (cluster endpoint : String)
  | circuitBreakerClosed (cluster endpoint : String)
  -- sessions
  | sessionRegistered (sessionId : SessionId) (listener peer : String)
  | sessionUnregistered (sessionId : SessionId)
  | connectionOpened (listener peer : String)
  | connectionClosed (listener peer : String)
  | sessionBound (sessionId : SessionId) (listener systemId bindType : String)
  | sessionUnbound (sessionId : SessionId) (listener systemId : String)
  | sessionAuthFailed (listener systemId reason : String)
  -- the message flow
  | messageSubmitRequest (envelope : MessageEnvelope)
  | messageAccepted (envelope : MessageEnvelope)
  | messageRejected (envelope : MessageEnvelope) (reason : String) (status : UInt32)
  | messageRouted (envelope : MessageEnvelope) (routeName clusterName : String)
      (fallbackClusters : List String)
  | messageForwarding (messageId : MessageId) (cluster endpoint : String) (attempt : UInt32)
  | messageDelivered (messageId : MessageId) (sessionId : SessionId) (sequenceNumber : UInt32)
      (smscMessageId : String) (latencyUs : UInt64)
  | messageFailed (messageId : MessageId) (sessionId : SessionId) (sequenceNumber : UInt32)
      (errorCode : Option UInt32) (reason : String) (permanent : Bool)
  | messageRetryScheduled (messageId : MessageId) (attempt : UInt32) (delayMs : UInt64)
      (reason : String)
  | messageRetryReady (messageId : MessageId)
  | responseReady (response : ResponseEnvelope)
  -- legacy message events
  | messageReceived (id : MessageId) (systemId destination : String)
  | messageSubmitted (id : MessageId) (cluster endpoint : String) (attempt : UInt32)
  | messageRetrying (id : MessageId) (attempt : UInt32) (delayMs : UInt64)
  | deliveryReceiptReceived (smscMessageId status cluster endpoint : String)
  | deliveryReceiptReady (sessionId : SessionId) (messageId : MessageId) (status : String)
      (errorCode : Option UInt32)
  | storage (event : StorageEvent)
  | throughputSnapshot

/-- Event categories for filtering subscriptions. -/
inductive EventCategory where
  | lifecycle
  | listener
  | cluster
  | session
  | message
  | storage
  | metrics
  deriving DecidableEq

/-- Get the event category for filtering. -/
def Event.category : Event → EventCategory
  | .starting | .ready | .shutdownStarted | .drainStarted | .shutdownComplete | .configReloaded =>
    .lifecycle
  | .listenerStarted .. | .listenerStopped _ => .listener
  | .clusterHealthChanged .. | .endpointUp .. | .endpointDown .. | .circuitBreakerOpened ..
  | .circuitBreakerClosed .. => .cluster
  | .sessionRegistered .. | .sessionUnregistered _ | .connectionOpened .. | .connectionClosed ..
  | .sessionBound .. | .sessionUnbound .. | .sessionAuthFailed .. => .session
  | .messageSubmitRequest _ | .messageAccepted _ | .messageRejected .. | .messageRouted ..
  | .messageForwarding .. | .messageDelivered .. | .messageFailed .. | .messageRetryScheduled ..
  | .messageRetryReady _ | .responseReady _ | .messageReceived .. | .messageSubmitted ..
  | .messageRetrying .. | .deliveryReceiptReceived .. | .deliveryReceiptReady .. => .message
  | .storage _ => .storage
  | .throughputSnapshot => .metrics

/-- Check if this is a high-priority event that should not be dropped. -/
def Event.isCritical : Event → Bool
  | .shutdownStarted | .configReloaded | .endpointDown .. | .circuitBreakerOpened ..
  | .messageSubmitRequest _ | .responseReady _ => true
  | _ => false

end Smppd.Bootstrap
