/-
  The SESSION of a client connection (`src/listener/session.rs`, `src/listener/connection.rs`): the
  state machine of a bind, and what `handle_pdu` does with each PDU.

  `handle_pdu` and the handlers it awaits are async functions over a `Connection` that other tasks hold
  too, so a body is a `Prog` of calls: one call reads the connection state, ONE writes it, one sends a
  PDU.  Run alone (`handled`) a body is what the session does when nobody else touches the connection;
  interleaved call by call it is what it does while the listener drains.

  * The state is CHECKED by the dispatcher and WRITTEN by the handler: `set_state` looks at the old
    state only to log it.
  * The loop looks at the `closing` flag between two turns and not during one.
  * The three bind handlers are one body with four values (`BindKind`): which bind types must be allowed,
    the command and the PDU of the response, and the state that a bind leads to.

  PDUs and frames come from the `smpp` crate, which is not part of the repository.  A frame brings its
  own answer to `is_response()`, and any answer can go with any PDU; `sequence()` is the sequence
  number of the header.  TLVs are empty in every PDU a session writes and left out; so are the
  telemetry counters.
-/
import Smppd.Bootstrap.Events
import Smppd.Filter.Auth

set_option linter.unusedVariables false

namespace Smppd.Listener

open Smppd.Store Smppd.Gateway Smppd.Bootstrap Smppd.Filter Table

/-! ## Connections -/

/-- Connection state. -/
inductive ConnectionState where
  /-- `Open`: connection established, awaiting bind. -/
  | opened
  | boundTx
  | boundRx
  | boundTrx
  | unbinding
  | closed
  deriving DecidableEq

namespace ConnectionState

/-- `can_send`. -/
def canSend : ConnectionState → Bool
  | .boundTx | .boundTrx => true
  | _ => false

/-- The states for which `Connection::is_bound` answers true. -/
def isBound : ConnectionState → Bool
  | .boundTx | .boundRx | .boundTrx => true
  | _ => false

end ConnectionState

/-! ## PDUs -/

/-- Commands a session writes, or names in its log. -/
inductive Command where
  | bindTransmitterResp
  | bindReceiverResp
  | bindTransceiverResp
  | unbindResp
  | enquireLink
  | enquireLinkResp
  | submitSmResp
  | genericNack
  | other (name : String)
  deriving DecidableEq

/-- Command status. -/
inductive Status where
  | ok
  | invalidBindStatus
  | invalidPassword
  | bindFailed
  | invalidCommandId
  /-- `Status::from_u32`. -/
  | fromU32 (code : UInt32)
  deriving DecidableEq

/-- PDU header. -/
structure Header where
  command : Command
  sequence : UInt32
  status : Status
  deriving DecidableEq

/-- `Header::with_status`. -/
def Header.withStatus (command : Command) (sequence : UInt32) (status : Status) : Header :=
  ⟨command, sequence, status⟩

/-- `Header::new`. -/
def Header.new (command : Command) (sequence : UInt32) : Header := ⟨command, sequence, .ok⟩

/-- The fields of a bind request that are used. -/
structure BindFields where
  systemId : String
  password : String

/-- A PDU; `other` is any PDU that the session has no case for. -/
inductive Pdu where
  | bindTransmitter (bind : BindFields)
  | bindReceiver (bind : BindFields)
  | bindTransceiver (bind : BindFields)
  | bindTransmitterResp (systemId : String)
  | bindReceiverResp (systemId : String)
  | bindTransceiverResp (systemId : String)
  | unbind
  | unbindResp
  | enquireLink
  | enquireLinkResp
  | submitSm (submit : SubmitSm)
  | submitSmResp (messageId : String)
  | deliverSmResp
  | genericNack
  | other (name : String)

/-- A decoded frame. -/
structure PduFrame where
  header : Header
  pdu : Pdu
  isResponse : Bool

/-- `PduFrame::sequence`. -/
def PduFrame.sequence (frame : PduFrame) : UInt32 := frame.header.sequence

/-! ## The calls of a session -/

/-- The session errors that a turn of the loop can end with. -/
inductive SessionError where
  | smpp (e : String)

/-- A request of ours that awaits its response. -/
structure PendingRequest where
  command : Command
  sentAt : Instant

/-- What a body of the session, or of the listener, does to the outside. -/
inductive Call where
  /-- `*self.state.read().await`. -/
  | state
  /-- `*self.state.write().await = state`. -/
  | putState (state : ConnectionState)
  | systemId
  | putSystemId (systemId : String)
  | nextSequence
  /-- `closing.load`. -/
  | isClosing
  /-- `closing.store(true)`. -/
  | putClosing
  /-- `framed.send((header, pdu))`. -/
  | send (header : Header) (pdu : Pdu)
  /-- `MessageEnvelope::new` with the session's id. -/
  | envelope (sequenceNumber : UInt32) (systemId : String) (submit : SubmitSm)
  /-- `bus.publish(Event::MessageSubmitRequest(envelope))`. -/
  | publish (envelope : MessageEnvelope)
  /-- `Connection::touch`. -/
  | touch
  /-- `pending.insert`, with the time. -/
  | putPending (sequence : UInt32) (command : Command)
  /-- `pending.remove`. -/
  | takePending (sequence : UInt32)
  /-- `last_enquire_link = Some(Instant::now())`. -/
  | putLastEnquireLink
  /-- `check_pending_timeouts`, which is synchronous. -/
  | dropPending (timeout : Duration)
  /-- The loop is left, and the session with it. -/
  | leave

/-- The answer of a call; a send answers with its error, if any. -/
abbrev Call.Res : Call → Type
  | .state => ConnectionState
  | .systemId => Option String
  | .nextSequence => UInt32
  | .isClosing => Bool
  | .send _ _ => Option String
  | .envelope _ _ _ => MessageEnvelope
  | .takePending _ => Option PendingRequest
  | _ => Unit

/-- A body over a connection. -/
abbrev Body (α : Type) := Prog Call Call.Res α

/-- One call. -/
abbrev ask (call : Call) : Body call.Res := Prog.request call

/-- What a connection and its session have seen and done. -/
structure Conn where
  state : ConnectionState := .opened
  systemId : Option String := none
  sequence : UInt32 := 1
  closing : Bool := false
  pending : Tbl UInt32 PendingRequest := ∅
  lastEnquireLink : Option Instant := none
  /-- `last_activity`. -/
  lastActivity : Instant := 0
  /-- What has been written to the peer. -/
  written : List (Header × Pdu) := []
  /-- The `MessageSubmitRequest`s published. -/
  published : List MessageEnvelope := []
  /-- The session has left its loop. -/
  left : Bool := false

/-- `Connection::new`. -/
def Conn.new (now : Instant) : Conn := { lastActivity := now }

/-- The surroundings of a call: what the clock reads, where the message id counter stands (all sessions
    draw from it), and how a send ends. -/
structure SessionEnv where
  clock : Clock
  counter : Nat
  sendError : Option String

/-- What each call does, for the session with this id. -/
def perform (sessionId : SessionId) (env : SessionEnv) : (call : Call) → Conn → call.Res × Conn
  | .state, c => (c.state, c)
  | .putState state, c => ((), { c with state := state })
  | .systemId, c => (c.systemId, c)
  | .putSystemId systemId, c => ((), { c with systemId := some systemId })
  | .nextSequence, c => (c.sequence, { c with sequence := c.sequence + 1 })
  | .isClosing, c => (c.closing, c)
  | .putClosing, c => ((), { c with closing := true })
  | .send header pdu, c =>
    (env.sendError, match env.sendError with
      | none => { c with written := c.written ++ [(header, pdu)] }
      | some _ => c)
  | .envelope sequenceNumber systemId submit, c =>
    ((MessageEnvelope.new env.clock env.counter sessionId sequenceNumber systemId submit).1, c)
  | .publish envelope, c => ((), { c with published := c.published ++ [envelope] })
  | .touch, c => ((), { c with lastActivity := env.clock.now })
  | .putPending sequence command, c =>
    ((), { c with pending := c.pending.insert sequence ⟨command, env.clock.now⟩ })
  | .takePending sequence, c =>
    (c.pending.lookup sequence, { c with pending := c.pending.erase sequence })
  | .putLastEnquireLink, c => ((), { c with lastEnquireLink := some env.clock.now })
  | .dropPending timeout, c =>
    let timedOut := c.pending.entries.filter fun e => timeout < elapsed env.clock e.2.sentAt
    ((), { c with pending := eraseAll (timedOut.map Sigma.fst) c.pending })
  | .leave, c => ((), { c with left := true })

/-! ## The bodies -/

/-- What a session is given: its id, the address of its peer and its credential store. -/
structure SmppSession (Ip Net : Type) where
  sessionId : SessionId
  peerIp : Ip
  credentials : CredentialStore Net

/-- What a handler returns. -/
abbrev Handled := Except SessionError Unit

/-- `Connection::set_state`. -/
def setState (state : ConnectionState) : Body Unit := do
  let _ ← ask .state
  ask (.putState state)

/-- `send_pdu`. -/
def sendPdu (header : Header) (pdu : Pdu) : Body Handled := do
  match ← ask (.send header pdu) with
  | none => pure (.ok ())
  | some e => pure (.error (.smpp e))

/-- `send_error`. -/
def sendError (sequence : UInt32) (status : Status) : Body Handled :=
  sendPdu (.withStatus .genericNack sequence status) .genericNack

/-- The values in which the three bind handlers differ. -/
structure BindKind where
  bindType : BindType
  command : Command
  response : String → Pdu
  bound : ConnectionState

/-- The values of `handle_bind_transmitter`. -/
def BindKind.transmitter : BindKind :=
  ⟨.transmitter, .bindTransmitterResp, .bindTransmitterResp, .boundTx⟩

/-- The values of `handle_bind_receiver`. -/
def BindKind.receiver : BindKind := ⟨.receiver, .bindReceiverResp, .bindReceiverResp, .boundRx⟩

/-- The values of `handle_bind_transceiver`. -/
def BindKind.transceiver : BindKind :=
  ⟨.transceiver, .bindTransceiverResp, .bindTransceiverResp, .boundTrx⟩

section Handlers

variable {Ip Net : Type} (nets : IpNets Ip Net) (self : SmppSession Ip Net)

/-- The body of the three bind handlers. -/
def handleBind (kind : BindKind) (header : Header) (bind : BindFields) : Body Handled :=
  match self.credentials.validate bind.systemId bind.password with
  | none =>
    sendPdu (.withStatus kind.command header.sequence .invalidPassword) (kind.response "")
  | some creds =>
    if !creds.enabled then
      sendPdu (.withStatus kind.command header.sequence .bindFailed) (kind.response "")
    else if !creds.isBindAllowed kind.bindType then
      sendPdu (.withStatus kind.command header.sequence .bindFailed) (kind.response "")
    else if !creds.isIpAllowed nets self.peerIp then
      sendPdu (.withStatus kind.command header.sequence .bindFailed) (kind.response "")
    else do
      ask (.putSystemId bind.systemId)
      setState kind.bound
      sendPdu (.withStatus kind.command header.sequence .ok) (kind.response "smppd")

/-- `handle_bind_transmitter`. -/
def handleBindTransmitter := handleBind nets self .transmitter

/-- `handle_bind_receiver`. -/
def handleBindReceiver := handleBind nets self .receiver

/-- `handle_bind_transceiver`. -/
def handleBindTransceiver := handleBind nets self .transceiver

/-- `handle_unbind`. -/
def handleUnbind (header : Header) : Body Handled := do
  setState .unbinding
  match ← sendPdu (.withStatus .unbindResp header.sequence .ok) .unbindResp with
  | .error e => pure (.error e)
  | .ok () =>
    setState .closed
    pure (.ok ())

/-- `handle_enquire_link`. -/
def handleEnquireLink (header : Header) : Body Handled :=
  sendPdu (.withStatus .enquireLinkResp header.sequence .ok) .enquireLinkResp

/-- `handle_submit_sm`. -/
def handleSubmitSm (header : Header) (submit : SubmitSm) : Body Handled := do
  let clientSystemId ← ask .systemId
  let envelope ← ask (.envelope header.sequence (clientSystemId.getD "") submit)
  ask (.publish envelope)
  pure (.ok ())

/-- `handle_response`. -/
def handleResponse (frame : PduFrame) : Body Handled := do
  let _ ← ask (.takePending frame.sequence)
  pure (.ok ())

/-- `handle_pdu`. -/
def handlePdu (frame : PduFrame) : Body Handled := do
  let state ← ask .state
  if frame.isResponse then handleResponse frame
  else
    match frame.pdu with
    | .bindTransmitter bind =>
      if state ≠ .opened then sendError frame.sequence .invalidBindStatus
      else handleBindTransmitter nets self frame.header bind
    | .bindReceiver bind =>
      if state ≠ .opened then sendError frame.sequence .invalidBindStatus
      else handleBindReceiver nets self frame.header bind
    | .bindTransceiver bind =>
      if state ≠ .opened then sendError frame.sequence .invalidBindStatus
      else handleBindTransceiver nets self frame.header bind
    | .unbind => do
      let state ← ask .state
      if !state.isBound then sendError frame.sequence .invalidBindStatus
      else handleUnbind frame.header
    | .enquireLink => handleEnquireLink frame.header
    | .submitSm submit => do
      let state ← ask .state
      if !state.canSend then sendError frame.sequence .invalidBindStatus
      else handleSubmitSm frame.header submit
    | .deliverSmResp => pure (.ok ())
    | .genericNack => pure (.ok ())
    | _ => sendError frame.sequence .invalidCommandId

/-! ## The loop -/

/-- `send_enquire_link`. -/
def sendEnquireLink : Body Handled := do
  let seq ← ask .nextSequence
  ask (.putPending seq .enquireLink)
  match ← sendPdu (.new .enquireLink seq) .enquireLink with
  | .error e => pure (.error e)
  | .ok () =>
    ask .putLastEnquireLink
    pure (.ok ())

/-- `handle_async_response`. -/
def handleAsyncResponse (response : ResponseEnvelope) : Body Handled :=
  sendPdu (.withStatus .submitSmResp response.sequenceNumber (.fromU32 response.commandStatus))
    (.submitSmResp response.messageId)

/-- What the `select!` of a turn yields. -/
inductive Turn where
  | pdu (frame : PduFrame)
  /-- A decode error, or the peer has closed the connection. -/
  | hangup
  /-- `timeout(idle_timeout, ..)` has elapsed. -/
  | idle
  | response (response : ResponseEnvelope)
  /-- The second for housekeeping has elapsed. -/
  | housekeeping

/-- What comes after the loop. -/
def leaveLoop : Body Unit := do
  setState .closed
  ask .leave

/-- One turn of `run_loop`, for what its `select!` yields. -/
def turn (requestTimeout : Duration) (event : Turn) : Body Unit := do
  match ← ask .isClosing with
  | true => leaveLoop
  | false =>
    match event with
    | .pdu frame =>
      ask .touch
      match ← handlePdu nets self frame with
      | .ok () => pure ()
      | .error _ => leaveLoop
    | .hangup => leaveLoop
    | .idle =>
      let state ← ask .state
      if state.isBound then
        match ← sendEnquireLink with
        | .ok () => pure ()
        | .error _ => leaveLoop
      else leaveLoop
    | .response response =>
      let _ ← handleAsyncResponse response
      pure ()
    | .housekeeping => ask (.dropPending requestTimeout)

/-- `Connection::initiate_close`, which the listener calls when it drains. -/
def initiateClose : Body Unit := do
  ask .putClosing
  setState .closed

end Handlers

end Smppd.Listener
