/-
  `RetryProcessor` (`src/forwarder/retry.rs`): resubmit the messages in state `Retrying`.

  One pass over a message loads it again, gives up when the attempt counter has reached
  `MAX_RETRIES` or the time to live has passed, and otherwise routes it and tries the clusters.  A
  pass whose clusters all fail writes the message back with `mark_retry`.
-/
import Smppd.Forwarder.Processor

set_option linter.unusedVariables false

namespace Smppd.Forwarder

open Smppd.Store Smppd.Gateway Prog

/-- `MAX_RETRIES`. -/
def maxRetries : UInt32 := 5

/-- The delays of the retry processor. -/
structure RetryConfig where
  baseDelay : Duration
  maxDelay : Duration

/-- `calculate_backoff`, in milliseconds and in `u64` arithmetic. -/
def RetryConfig.calculateBackoff (config : RetryConfig) (attempts : UInt32) : Duration :=
  let delay := UInt64.ofNat (asMillis config.baseDelay) * UInt64.ofNat (2 ^ attempts.toNat)
  let capped := min delay (UInt64.ofNat (asMillis config.maxDelay))
  fromMillis capped.toNat

/-- Errors during retry operations. -/
inductive RetryError where
  | clusterNotFound (name : String)
  | noConnection
  | timeout
  | ioError (e : String)
  | smscError (status : UInt32)
  | unexpectedResponse (debug : String)

/-- `build_submit_sm`. -/
def buildSubmitSm (msg : StoredMessage) : SubmitSm where
  serviceType := msg.serviceType.getD ""
  sourceAddr := msg.source
  destAddr := msg.destination
  esmClass := msg.esmClass
  registeredDelivery := msg.registeredDelivery
  dataCoding := msg.dataCoding
  shortMessage := msg.shortMessage

variable {D : Type}

/-- `try_forward_retry`. -/
def tryForwardRetry (msg : StoredMessage) (name : String) :
    Body (Output D) (Except RetryError String) := do
  match ← ask (.cluster name) with
  | none => pure (.error (.clusterNotFound name))
  | some true => pure (.ok ("MOCK-RETRY-" ++ msg.id.toText))
  | some false =>
    match ← ask (.getConnection name) with
    | false => pure (.error .noConnection)
    | true =>
      match ← ask (.sendPdu name (buildSubmitSm msg)) with
      | .timeout => pure (.error .timeout)
      | .ioError e => pure (.error (.ioError e))
      | .submitSmResp status messageId =>
        if status ≠ 0 then pure (.error (.smscError status)) else pure (.ok messageId)
      | .other debug => pure (.error (.unexpectedResponse debug))

/-- The loop over `clusters_to_try`: the first cluster that accepts, if any. -/
def retryClusters (msg : StoredMessage) : List String → Body (Output D) (Option (String × String))
  | [] => pure none
  | name :: rest => do
    match ← tryForwardRetry msg name with
    | .ok upstreamId => pure (some (name, upstreamId))
    | .error _ => retryClusters msg rest

/-- `retry_message`. -/
def retryMessage (config : RetryConfig) (messageId : MessageId) : Body (Output D) Unit := do
  match ← ask (.get messageId) with
  | none => pure ()
  | some current =>
    if current.state ≠ .retrying then pure ()
    else if maxRetries ≤ current.attempts then
      let _ ← ask (.update messageId fun clock m =>
        m.markFailed clock (some 0x58) "max retries exceeded")
      pure ()
    else
      let clock ← ask .now
      match current.isExpired clock with
      | true =>
        let _ ← ask (.update messageId fun clock m => m.markExpired clock)
        pure ()
      | false =>
        match ← ask (.route current.destination current.source) with
        | none =>
          let _ ← ask (.update messageId fun clock m =>
            m.markFailed clock (some 0x0B) "no route found")
          pure ()
        | some route =>
          match ← retryClusters current route.clustersToTry with
          | some (name, upstreamId) =>
            let _ ← ask (.update messageId (accepted name upstreamId))
            pure ()
          | none =>
            let nextDelay := config.calculateBackoff current.attempts
            let _ ← ask (.update messageId fun clock m =>
              m.markRetry clock nextDelay (some 0x58) "all clusters failed")
            pure ()

/-- The loop of `process_retries` over the messages that were ready when it looked. -/
def retryAll (config : RetryConfig) : List StoredMessage → Body (Output D) Unit
  | [] => pure ()
  | msg :: rest => do
    retryMessage config msg.id
    retryAll config rest

/-- `process_retries`. -/
def processRetries (config : RetryConfig) : Body (Output D) Unit := do
  let ready ← ask .getReadyForRetry
  retryAll config ready

/-! ## Trying clusters again, under any specification -/

section Frames

variable {G : Type} {π : Spec (Op (Output D)) Op.Res G} {msg : StoredMessage} {g : G}

theorem wp_tryForwardRetry (hattempts : Attempts π (buildSubmitSm msg) g) (name : String)
    {post : Except RetryError String → G → Prop} (hpost : ∀ r, post r g) :
    (tryForwardRetry msg name).wp π post g := by
  unfold tryForwardRetry
  refine hattempts.cluster name _ fun cluster => ?_
  rcases cluster with _ | mock
  · exact hpost _
  · cases mock with
    | true => exact hpost _
    | false =>
      refine hattempts.connection name _ fun connection => ?_
      cases connection with
      | false => exact hpost _
      | true =>
        refine hattempts.send name _ fun reply => ?_
        cases reply with
        | submitSmResp status upstreamId =>
          show Prog.wp _ (if status ≠ 0 then _ else _) post _
          split
          · exact hpost _
          · exact hpost _
        | _ => exact hpost _

theorem wp_retryClusters (hattempts : Attempts π (buildSubmitSm msg) g) (names : List String)
    {post : Option (String × String) → G → Prop} (hpost : ∀ r, post r g) :
    (retryClusters msg names).wp π post g := by
  induction names with
  | nil => exact hpost _
  | cons name rest ih =>
    unfold retryClusters
    rw [wp_bind]
    refine wp_tryForwardRetry hattempts name fun r => ?_
    cases r with
    | ok upstreamId => exact hpost _
    | error e => exact ih

end Frames

end Smppd.Forwarder
