/-
  `MessageForwarder` (`src/forwarder/processor.rs`): store a submitted message, route it, try the
  primary cluster and then the fallbacks, and record in the store how it ended.

  The body is the one of the source, call for call.  Three of its facts matter later:

  * the message is stored under the id its own constructor drew, and every later update uses THAT
    id (`message_id = stored.id`);
  * the upstream id reaches the store only in the update after the reply, together with
    `mark_in_flight`;
  * between the store and that update the message is `Pending`, and the body waits on the network.
-/
import Smppd.Gateway.Calls

set_option linter.unusedVariables false

namespace Smppd.Forwarder

open Smppd.Store Smppd.Gateway Prog

/-! ## Requests and results -/

/-- Request to forward a message; the response channel is the sender's. -/
structure ForwardRequest where
  submitSm : SubmitSm
  clientSystemId : String
  sequenceNumber : UInt32

/-- A request, for the samples. -/
def sampleRequest : ForwardRequest :=
  ⟨{ sourceAddr := "+258841234567", destAddr := "+258821234567", shortMessage := [72, 105] },
    "client1", 1⟩

/-- Result of a forward operation. -/
structure ForwardResult where
  messageId : String
  commandStatus : UInt32
  error : Option String

/-- `ForwardResult::success`. -/
def ForwardResult.success (messageId : String) : ForwardResult := ⟨messageId, 0, none⟩

/-- `ForwardResult::error`. -/
def ForwardResult.failure (messageId : String) (commandStatus : UInt32) (error : String) :
    ForwardResult := ⟨messageId, commandStatus, some error⟩

/-- What the forwarder tasks send out: the result of a request, or a receipt to a client. -/
inductive Output (D : Type) where
  | result (r : ForwardResult)
  | receipt (systemId : String) (deliver : D)

/-- Errors that can occur during forwarding. -/
inductive ForwardError where
  | clusterNotFound (name : String)
  | noConnection
  | timeout
  | ioError (e : String)
  | smscError (status : UInt32) (messageId : String)
  | unexpectedResponse (debug : String)

/-- `Display for ForwardError`. -/
def ForwardError.toText : ForwardError → String
  | .clusterNotFound name => "cluster not found: " ++ name
  | .noConnection => "no healthy connection available"
  | .timeout => "timeout waiting for response"
  | .ioError e => "I/O error: " ++ e
  | .smscError status messageId =>
    "SMSC error: status=" ++ toString status.toNat ++ ", message_id=" ++ messageId
  | .unexpectedResponse d => "unexpected response: " ++ d

variable {D : Type}

/-! ## The body -/

/-- `send_submit_sm`. -/
def sendSubmitSm (name : String) (submitSm : SubmitSm) :
    Body (Output D) (Except ForwardError (UInt32 × String)) := do
  match ← ask (.sendPdu name submitSm) with
  | .timeout => pure (.error .timeout)
  | .ioError e => pure (.error (.ioError e))
  | .submitSmResp status messageId => pure (.ok (status, messageId))
  | .other debug => pure (.error (.unexpectedResponse debug))

/-- `try_forward_to_cluster`. -/
def tryForwardToCluster (name : String) (messageId : MessageId) (submitSm : SubmitSm) :
    Body (Output D) (Except ForwardError String) := do
  match ← ask (.cluster name) with
  | none => pure (.error (.clusterNotFound name))
  | some true => pure (.ok ("MOCK-" ++ messageId.toText))
  | some false =>
    match ← ask (.getConnection name) with
    | false => pure (.error .noConnection)
    | true =>
      match ← sendSubmitSm name submitSm with
      | .error e => pure (.error e)
      | .ok (status, upstreamId) =>
        let _ ← ask (.update messageId fun clock m =>
          m.recordResponse clock status (some upstreamId) 0)
        if status ≠ 0 then pure (.error (.smscError status upstreamId)) else pure (.ok upstreamId)

/-- The loop over `clusters_to_try`: the cluster that accepted with its message id, or the error of
    the last one that was tried. -/
def tryClusters (messageId : MessageId) (submitSm : SubmitSm) :
    List String → Option ForwardError → Body (Output D) (Except (Option ForwardError) (String × String))
  | [], lastError => pure (.error lastError)
  | name :: rest, _ => do
    match ← tryForwardToCluster name messageId submitSm with
    | .ok upstreamId => pure (.ok (name, upstreamId))
    | .error e => tryClusters messageId submitSm rest (some e)

/-- The update once a cluster has accepted the message. -/
def accepted (name upstreamId : String) (clock : Clock) (m : StoredMessage) : StoredMessage :=
  { m with smscMessageId := some upstreamId }.markInFlight clock name "upstream"

/-- `process_request`. -/
def processRequest (request : ForwardRequest) : Body (Output D) Unit := do
  let stored ← ask (.newMessage request.submitSm.sourceAddr request.submitSm.destAddr
    request.submitSm.shortMessage request.clientSystemId request.sequenceNumber)
  let stored := ((stored.withDataCoding request.submitSm.dataCoding).withEsmClass
    request.submitSm.esmClass).withRegisteredDelivery request.submitSm.registeredDelivery
  let messageId := stored.id
  ask (.store stored)
  match ← ask (.route request.submitSm.destAddr request.submitSm.sourceAddr) with
  | none =>
    let _ ← ask (.update messageId fun clock m => m.markFailed clock (some 0x0B) "no route found")
    ask (.emit (.result (.failure messageId.toText 0x0B "no route found")))
  | some route =>
    match ← tryClusters messageId request.submitSm route.clustersToTry none with
    | .ok (name, upstreamId) =>
      let _ ← ask (.update messageId (accepted name upstreamId))
      ask (.emit (.result (.success messageId.toText)))
    | .error lastError =>
      let errorMsg := (lastError.map ForwardError.toText).getD "all clusters failed"
      let current ← ask (.get messageId)
      let clock ← ask .now
      match (current.map fun m => m.canRetry clock).getD false with
      | true =>
        let _ ← ask (.update messageId fun clock m =>
          m.markRetry clock (fromSecs 1) (some 0x58) errorMsg)
        ask (.emit (.result (.success messageId.toText)))
      | false =>
        let _ ← ask (.update messageId fun clock m => m.markFailed clock (some 0x58) errorMsg)
        ask (.emit (.result (.success messageId.toText)))

/-! ## Trying clusters, under any specification -/

section Frames

variable {G : Type} {π : Spec (Op (Output D)) Op.Res G} {id : MessageId} {g : G}

/-- The calls of an attempt with the PDU leave the ghost as it is. -/
structure Attempts (π : Spec (Op (Output D)) Op.Res G) (pdu : SubmitSm) (g : G) : Prop where
  cluster : ∀ name (post : Option Bool → G → Prop), (∀ r, post r g) → π (.cluster name) post g
  connection : ∀ name (post : Bool → G → Prop), (∀ r, post r g) → π (.getConnection name) post g
  send : ∀ name (post : Reply → G → Prop), (∀ r, post r g) → π (.sendPdu name pdu) post g

/-- So does recording the response in the message. -/
def Records (π : Spec (Op (Output D)) Op.Res G) (id : MessageId) (g : G) : Prop :=
  ∀ status messageId latency (post : Bool → G → Prop), (∀ b, post b g) →
    π (.update id fun clock m => m.recordResponse clock status messageId latency) post g

/-- The calls made while clusters are tried for the message leave the ghost as it is. -/
structure Frames (π : Spec (Op (Output D)) Op.Res G) (id : MessageId) (g : G) : Prop where
  cluster : ∀ name (post : Option Bool → G → Prop), (∀ r, post r g) → π (.cluster name) post g
  connection : ∀ name (post : Bool → G → Prop), (∀ r, post r g) → π (.getConnection name) post g
  send : ∀ name pdu (post : Reply → G → Prop), (∀ r, post r g) → π (.sendPdu name pdu) post g
  record : ∀ status messageId latency (post : Bool → G → Prop), (∀ b, post b g) →
    π (.update id fun clock m => m.recordResponse clock status messageId latency) post g

theorem Frames.attempts (h : Frames π id g) (pdu : SubmitSm) : Attempts π pdu g :=
  ⟨h.cluster, h.connection, fun name => h.send name pdu⟩

theorem wp_tryForwardToCluster {submitSm : SubmitSm} (hattempts : Attempts π submitSm g)
    (hrecords : Records π id g) (name : String) {post : Except ForwardError String → G → Prop}
    (hpost : ∀ r, post r g) : (tryForwardToCluster name id submitSm).wp π post g := by
  unfold tryForwardToCluster sendSubmitSm
  refine hattempts.cluster name _ fun cluster => ?_
  rcases cluster with _ | mock
  · exact hpost _
  · cases mock with
    | true => exact hpost _
    | false =>
      refine hattempts.connection name _ fun connection => ?_
      cases connection with
      | false => exact hpost _
      | true =>
        refine hattempts.send name _ fun reply => ?_
        cases reply with
        | submitSmResp status upstreamId =>
          refine hrecords _ _ _ _ fun _ => ?_
          show Prog.wp _ (if status ≠ 0 then _ else _) post _
          split
          · exact hpost _
          · exact hpost _
        | _ => exact hpost _

/-- Trying clusters ends in one of its results, with the ghost as it was. -/
theorem wp_tryClusters {submitSm : SubmitSm} (hattempts : Attempts π submitSm g) (hrecords : Records π id g)
    (names : List String) (lastError : Option ForwardError)
    {post : Except (Option ForwardError) (String × String) → G → Prop} (hpost : ∀ r, post r g) :
    (tryClusters id submitSm names lastError).wp π post g := by
  induction names generalizing lastError with
  | nil => exact hpost _
  | cons name rest ih =>
    unfold tryClusters
    rw [wp_bind]
    refine wp_tryForwardToCluster hattempts hrecords name fun r => ?_
    cases r with
    | ok upstreamId => exact hpost _
    | error e => exact ih (some e)

end Frames

end Smppd.Forwarder
