/-
  The PROCESSORS of the event-driven pipeline (`src/pipeline/filter.rs`, `router.rs`,
  `forwarder.rs`), as bodies over the gateway's calls; `publish` is the call `emit`.

  Every body is given one envelope and ends in one of three ways: it hands the envelope on with an
  event the next stage listens to, or it publishes a `ResponseReady` for it, and nothing else.  The
  forwarder never hands on.

  In `route_message` two ids meet: the one in the envelope, drawn by the session, and the one
  `StoredMessage::new` draws for the record.  The record is stored under the second, and every later
  access uses the first.
-/
import Smppd.Bootstrap.Events

set_option linter.unusedVariables false

namespace Smppd.Pipeline

open Smppd.Store Smppd.Gateway Smppd.Bootstrap

/-- `Bus::publish`. -/
def publish (event : Event) : Body Event Unit := ask (.emit event)

/-! ## The filter -/

namespace FilterProcessor

/-- `reject_message`. -/
def rejectMessage (envelope : MessageEnvelope) (reason : String) (status : UInt32) :
    Body Event Unit := do
  publish (.messageRejected envelope reason status)
  publish (.responseReady (.failure envelope.sessionId envelope.sequenceNumber
    envelope.messageId.toText status))

/-- `process_message`. -/
def processMessage (envelope : MessageEnvelope) : Body Event Unit :=
  if envelope.submitSm.destAddr.isEmpty then
    rejectMessage envelope "empty destination address" 0x0B
  else if envelope.submitSm.sourceAddr.isEmpty then
    rejectMessage envelope "empty source address" 0x0A
  else publish (.messageAccepted envelope)

end FilterProcessor

/-! ## The router -/

namespace RouterProcessor

/-- `route_message`. -/
def routeMessage (envelope : MessageEnvelope) : Body Event Unit := do
  let stored ← ask (.newMessage envelope.submitSm.sourceAddr envelope.submitSm.destAddr
    envelope.submitSm.shortMessage envelope.systemId envelope.sequenceNumber)
  let stored := ((stored.withDataCoding envelope.submitSm.dataCoding).withEsmClass
    envelope.submitSm.esmClass).withRegisteredDelivery envelope.submitSm.registeredDelivery
  ask (.store stored)
  match ← ask (.route envelope.submitSm.destAddr envelope.submitSm.sourceAddr) with
  | some result =>
    publish (.messageRouted envelope result.routeName result.clusterName result.fallback)
  | none =>
    let _ ← ask (.update envelope.messageId fun clock m =>
      m.markFailed clock (some 0x0B) "no route found")
    publish (.messageFailed envelope.messageId envelope.sessionId envelope.sequenceNumber
      (some 0x0B) "no route found" true)
    publish (.responseReady (.failure envelope.sessionId envelope.sequenceNumber
      envelope.messageId.toText 0x0B))

end RouterProcessor

/-! ## The forwarder -/

namespace ForwarderProcessor

/-- What a failed attempt leaves: the status to answer with, if there is one, and the error. -/
abbrev AttemptError := Option UInt32 × String

/-- `try_forward_to_cluster`. -/
def tryForwardToCluster (clusterName : String) (envelope : MessageEnvelope) :
    Body Event (Except AttemptError String) := do
  match ← ask (.cluster clusterName) with
  | none => pure (.error (none, "cluster not found: " ++ clusterName))
  | some true => pure (.ok ("MOCK-" ++ envelope.messageId.toText))
  | some false =>
    match ← ask (.getConnection clusterName) with
    | false => pure (.error (none, "no healthy connection available"))
    | true =>
      match ← ask (.sendPdu clusterName envelope.submitSm) with
      | .timeout => pure (.error (some 0x58, "timeout waiting for response"))
      | .ioError e => pure (.error (none, "I/O error: " ++ e))
      | .submitSmResp status messageId =>
        if status = 0 then pure (.ok messageId)
        else pure (.error (some status, "SMSC error: status=" ++ toString status.toNat))
      | .other debug => pure (.error (none, "unexpected response: " ++ debug))

/-- The loop over `clusters_to_try.iter().enumerate()`: the cluster that accepted with its message
    id, or what the last attempt left. -/
def tryClusters (envelope : MessageEnvelope) :
    List String → Nat → Option UInt32 × Option String →
      Body Event (Except (Option UInt32 × Option String) (String × String))
  | [], _, last => pure (.error last)
  | clusterName :: rest, attempt, _ => do
    publish (.messageForwarding envelope.messageId clusterName "pending" (UInt32.ofNat (attempt + 1)))
    match ← tryForwardToCluster clusterName envelope with
    | .ok smscMessageId => pure (.ok (clusterName, smscMessageId))
    | .error (code, msg) => tryClusters envelope rest (attempt + 1) (code, some msg)

/-- The update once a cluster has accepted the message. -/
def accepted (clusterName smscMessageId : String) (clock : Clock) (m : StoredMessage) :
    StoredMessage :=
  { m with smscMessageId := some smscMessageId }.markInFlight clock clusterName "upstream"

/-- `forward_message`. -/
def forwardMessage (envelope : MessageEnvelope) (clusterName : String)
    (fallbackClusters : List String) : Body Event Unit := do
  let start ← ask .now
  match ← tryClusters envelope (clusterName :: fallbackClusters) 0 (none, none) with
  | .ok (clusterName, smscMessageId) =>
    let clock ← ask .now
    let _ ← ask (.update envelope.messageId (accepted clusterName smscMessageId))
    publish (.messageDelivered envelope.messageId envelope.sessionId envelope.sequenceNumber
      smscMessageId (UInt64.ofNat (elapsed clock start.now / 1000)))
    publish (.responseReady (.success envelope.sessionId envelope.sequenceNumber smscMessageId))
  | .error (lastErrorCode, lastError) =>
    let errorMsg := lastError.getD "all clusters failed"
    let errorCode := lastErrorCode.getD 0x58
    let current ← ask (.get envelope.messageId)
    let clock ← ask .now
    match (current.map fun m => m.canRetry clock).getD false with
    | true =>
      let _ ← ask (.update envelope.messageId fun clock m =>
        m.markRetry clock (fromSecs 1) (some errorCode) errorMsg)
      publish (.messageRetryScheduled envelope.messageId 1 (UInt64.ofNat (asMillis (fromSecs 1)))
        errorMsg)
      publish (.responseReady (.success envelope.sessionId envelope.sequenceNumber
        envelope.messageId.toText))
    | false =>
      let _ ← ask (.update envelope.messageId fun clock m =>
        m.markFailed clock (some errorCode) errorMsg)
      publish (.messageFailed envelope.messageId envelope.sessionId envelope.sequenceNumber
        (some errorCode) errorMsg true)
      publish (.responseReady (.failure envelope.sessionId envelope.sequenceNumber
        envelope.messageId.toText errorCode))

end ForwarderProcessor

end Smppd.Pipeline
