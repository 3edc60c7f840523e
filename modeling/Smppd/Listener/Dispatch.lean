/-
  What `handle_pdu` does when it runs ALONE, and what follows for a single PDU and for any sequence
  of them.

  `react` is the decision of the dispatcher and its handlers, as a function of the connection state and
  the frame: bind, unbind, publish, write one PDU, or nothing.  `handled_eq` says that this is what
  running the body comes to; every other theorem here is a case analysis over `react`.

  * `one_reply_per_request` — every request is answered once and at once, with its own sequence number,
    unless it is a submission, which is published instead;
  * `submissions_authorised` — along any sequence of PDUs, a submission is published only under the one
    bind that was accepted before.
-/
import Smppd.Lib.Machine
import Smppd.Listener.Session

set_option linter.unusedVariables false

namespace Smppd.Listener

open Smppd.Store Smppd.Gateway Smppd.Bootstrap Smppd.Filter Prog Machine

variable {Ip Net : Type} (nets : IpNets Ip Net) (self : SmppSession Ip Net)

/-! ## The decision -/

/-- The credential store validates the bind, and the client is enabled, may bind so and may bind from
    where it is. -/
def admits (kind : BindKind) (fields : BindFields) : Bool :=
  match self.credentials.validate fields.systemId fields.password with
  | none => false
  | some creds =>
    creds.enabled && creds.isBindAllowed kind.bindType && creds.isIpAllowed nets self.peerIp

/-- The status with which a bind is refused. -/
def refusal (fields : BindFields) : Status :=
  match self.credentials.validate fields.systemId fields.password with
  | none => .invalidPassword
  | some _ => .bindFailed

/-- What a bind handler does once the checks are passed. -/
def acceptBind (kind : BindKind) (header : Header) (fields : BindFields) : Body Handled := do
  ask (.putSystemId fields.systemId)
  setState kind.bound
  sendPdu (.withStatus kind.command header.sequence .ok) (kind.response "smppd")

theorem handleBind_admitted {kind : BindKind} {fields : BindFields} (h : admits nets self kind fields = true)
    (header : Header) :
    handleBind nets self kind header fields = acceptBind kind header fields := by
  unfold admits at h
  unfold handleBind
  cases hcreds : self.credentials.validate fields.systemId fields.password with
  | none =>
    rw [hcreds] at h
    cases h
  | some creds =>
    rw [hcreds] at h
    simp only [Bool.and_eq_true] at h
    simp only [h.1.1, h.1.2, h.2, Bool.not_true, Bool.false_eq_true, if_false, acceptBind]

theorem handleBind_refused {kind : BindKind} {fields : BindFields} (h : admits nets self kind fields = false)
    (header : Header) :
    handleBind nets self kind header fields =
      sendPdu (.withStatus kind.command header.sequence (refusal self fields)) (kind.response "") := by
  unfold admits at h
  unfold handleBind refusal
  cases hcreds : self.credentials.validate fields.systemId fields.password with
  | none => rfl
  | some creds =>
    rw [hcreds] at h
    dsimp only at h ⊢
    cases henabled : creds.enabled with
    | false => rfl
    | true =>
      cases hallowed : creds.isBindAllowed kind.bindType with
      | false => rfl
      | true =>
        rw [henabled, hallowed] at h
        have hip : creds.isIpAllowed nets self.peerIp = false := h
        rw [hip]
        rfl

/-- What the session does about a frame. -/
inductive Reaction where
  | bind (kind : BindKind) (fields : BindFields)
  | unbind
  | submit (submit : SubmitSm)
  | reply (header : Header) (pdu : Pdu)
  /-- A response to a request of ours. -/
  | settle
  | ignore

/-- A `generic_nack` for the frame. -/
def nack (frame : PduFrame) (status : Status) : Reaction :=
  .reply (.withStatus .genericNack frame.sequence status) .genericNack

/-- The reaction to a bind. -/
def reactBind (state : ConnectionState) (frame : PduFrame) (kind : BindKind) (fields : BindFields) :
    Reaction :=
  if state ≠ .opened then nack frame .invalidBindStatus
  else if admits nets self kind fields then .bind kind fields
  else .reply (.withStatus kind.command frame.sequence (refusal self fields)) (kind.response "")

/-- The reaction to a frame in a connection state. -/
def react (state : ConnectionState) (frame : PduFrame) : Reaction :=
  if frame.isResponse then .settle
  else
    match frame.pdu with
    | .bindTransmitter fields => reactBind nets self state frame .transmitter fields
    | .bindReceiver fields => reactBind nets self state frame .receiver fields
    | .bindTransceiver fields => reactBind nets self state frame .transceiver fields
    | .unbind => if state.isBound then .unbind else nack frame .invalidBindStatus
    | .enquireLink =>
      .reply (.withStatus .enquireLinkResp frame.sequence .ok) .enquireLinkResp
    | .submitSm submit => if state.canSend then .submit submit else nack frame .invalidBindStatus
    | .deliverSmResp => .ignore
    | .genericNack => .ignore
    | _ => nack frame .invalidCommandId

/-- The connection after a send that ended so. -/
def wrote (error : Option String) (header : Header) (pdu : Pdu) (c : Conn) : Conn :=
  match error with
  | none => { c with written := c.written ++ [(header, pdu)] }
  | some _ => c

/-- The connection after a reaction, in surroundings that were met on the way. -/
def Reaction.after (frame : PduFrame) (env : SessionEnv) (c : Conn) : Reaction → Conn
  | .bind kind fields =>
    wrote env.sendError (.withStatus kind.command frame.sequence .ok) (kind.response "smppd")
      { c with systemId := some fields.systemId, state := kind.bound }
  | .unbind =>
    match env.sendError with
    | none =>
      { c with
        written := c.written ++ [(.withStatus .unbindResp frame.sequence .ok, .unbindResp)]
        state := .closed }
    | some _ => { c with state := .unbinding }
  | .submit sm =>
    { c with published := c.published ++ [(MessageEnvelope.new env.clock env.counter self.sessionId
        frame.sequence (c.systemId.getD "") sm).1] }
  | .reply header pdu => wrote env.sendError header pdu c
  | .settle => { c with pending := c.pending.erase frame.sequence }
  | .ignore => c

/-! ## Running the body -/

/-- What `handle_pdu` returns and leaves, run alone. -/
def handled (frame : PduFrame) (env : Nat → SessionEnv) (c : Conn) : Handled × Conn :=
  let r := (handlePdu nets self frame).exec (perform self.sessionId) env c
  (r.1, r.2.1)

/-- What a send returns. -/
def sendResult : Option String → Handled
  | none => .ok ()
  | some e => .error (.smpp e)

variable {self} in
theorem sendPdu_exec (header : Header) (pdu : Pdu) (env : Nat → SessionEnv) (c : Conn) :
    (sendPdu header pdu).exec (perform self.sessionId) env c =
      (sendResult (env 0).sendError, wrote (env 0).sendError header pdu c, fun i => env (i + 1)) := by
  unfold sendPdu sendResult wrote
  simp only [request_bind, exec_call, perform]
  cases (env 0).sendError with
  | none => rfl
  | some e => rfl

/-- A single send, as a reaction. -/
theorem exec_reply (frame : PduFrame) (header : Header) (pdu : Pdu) (env : Nat → SessionEnv)
    (c : Conn) :
    ∃ i, ((sendPdu header pdu).exec (perform self.sessionId) env c).2.1 =
      (Reaction.reply header pdu).after self frame (env i) c :=
  ⟨0, by rw [sendPdu_exec]; rfl⟩

/-- The gate of the dispatcher and the bind handler behind it. -/
theorem exec_bindGate (frame : PduFrame) (kind : BindKind) (fields : BindFields)
    (env : Nat → SessionEnv) (c : Conn) :
    ∃ i, ((if c.state ≠ .opened then sendError frame.sequence .invalidBindStatus
        else handleBind nets self kind frame.header fields).exec (perform self.sessionId) env c).2.1 =
      (reactBind nets self c.state frame kind fields).after self frame (env i) c := by
  unfold reactBind
  by_cases hopen : c.state ≠ .opened
  · rw [if_pos hopen, if_pos hopen]
    exact exec_reply self frame _ _ env c
  · rw [if_neg hopen, if_neg hopen]
    cases hadmits : admits nets self kind fields with
    | true =>
      rw [handleBind_admitted nets self hadmits]
      refine ⟨3, ?_⟩
      unfold acceptBind setState
      simp only [request_bind, call_bind, exec_call, perform, sendPdu_exec]
      rfl
    | false =>
      rw [handleBind_refused nets self hadmits]
      exact exec_reply self frame _ _ env c

/-- The gate of an unbind, which reads the state again, and the handler. -/
theorem exec_unbindGate (frame : PduFrame) (env : Nat → SessionEnv) (c : Conn) :
    ∃ i, ((if !c.state.isBound then sendError frame.sequence .invalidBindStatus
        else handleUnbind frame.header).exec (perform self.sessionId) env c).2.1 =
      (if c.state.isBound then Reaction.unbind else nack frame .invalidBindStatus).after self frame
        (env i) c := by
  cases c.state.isBound with
  | false => exact exec_reply self frame _ _ env c
  | true =>
    refine ⟨2, ?_⟩
    simp only [Bool.not_true, Bool.false_eq_true, if_false, if_true]
    unfold handleUnbind setState Reaction.after
    simp only [request_bind, call_bind, exec_call, perform]
    rw [Prog.exec_bind, sendPdu_exec]
    cases (env 2).sendError with
    | none => rfl
    | some e => rfl

/-- The gate of a submission, which reads the state again, and the handler. -/
theorem exec_submitGate (frame : PduFrame) (sm : SubmitSm) (env : Nat → SessionEnv) (c : Conn) :
    ∃ i, ((if !c.state.canSend then sendError frame.sequence .invalidBindStatus
        else handleSubmitSm frame.header sm).exec (perform self.sessionId) env c).2.1 =
      (if c.state.canSend then Reaction.submit sm else nack frame .invalidBindStatus).after self frame
        (env i) c := by
  cases c.state.canSend with
  | false => exact exec_reply self frame _ _ env c
  | true => exact ⟨1, rfl⟩

/-- **What `handle_pdu` does, run alone**: it carries out the reaction to the frame. -/
theorem handled_eq (frame : PduFrame) (env : Nat → SessionEnv) (c : Conn) :
    ∃ i, (handled nets self frame env c).2 =
      (react nets self c.state frame).after self frame (env i) c := by
  let later : Nat → SessionEnv := fun i => env (i + 1)
  -- the first call has read the state
  suffices h : ∃ i, (handled nets self frame env c).2 =
      (react nets self c.state frame).after self frame (later i) c from
    ⟨h.choose + 1, h.choose_spec⟩
  unfold handled handlePdu react
  simp only [request_bind, exec_call, perform]
  cases hresp : frame.isResponse with
  | true => exact ⟨0, rfl⟩
  | false =>
    simp only [Bool.false_eq_true, if_false]
    cases hpdu : frame.pdu with
    | bindTransmitter fields => exact exec_bindGate nets self frame .transmitter fields later c
    | bindReceiver fields => exact exec_bindGate nets self frame .receiver fields later c
    | bindTransceiver fields => exact exec_bindGate nets self frame .transceiver fields later c
    | unbind =>
      obtain ⟨i, h⟩ := exec_unbindGate self frame (fun i => later (i + 1)) c
      exact ⟨i + 1, h⟩
    | enquireLink => exact exec_reply self frame _ _ later c
    | submitSm sm =>
      obtain ⟨i, h⟩ := exec_submitGate self frame sm (fun i => later (i + 1)) c
      exact ⟨i + 1, h⟩
    | deliverSmResp => exact ⟨0, rfl⟩
    | genericNack => exact ⟨0, rfl⟩
    | _ => exact exec_reply self frame _ _ later c

/-! ## One PDU -/

/-- The PDU of a bind request, with the handler it goes to. -/
def bindOf : Pdu → Option (BindKind × BindFields)
  | .bindTransmitter fields => some (.transmitter, fields)
  | .bindReceiver fields => some (.receiver, fields)
  | .bindTransceiver fields => some (.transceiver, fields)
  | _ => none

/-- The frame is a bind that is accepted in this state. -/
def AcceptsBind (state : ConnectionState) (frame : PduFrame) (kind : BindKind)
    (fields : BindFields) : Prop :=
  frame.isResponse = false ∧ bindOf frame.pdu = some (kind, fields) ∧ state = .opened ∧
    ∃ creds, self.credentials.validate fields.systemId fields.password = some creds ∧
      creds.enabled = true ∧ creds.isBindAllowed kind.bindType = true ∧
      creds.isIpAllowed nets self.peerIp = true

/-- The frame is an unbind that is accepted in this state. -/
def AcceptsUnbind (state : ConnectionState) (frame : PduFrame) : Prop :=
  frame.isResponse = false ∧ frame.pdu = .unbind ∧ state.isBound = true

/-- The frame is a submission that is accepted in this state. -/
def acceptsSubmit (state : ConnectionState) (frame : PduFrame) : Bool :=
  !frame.isResponse && match frame.pdu with
    | .submitSm _ => state.canSend
    | _ => false

/-- The frame is to be answered at once: it is a request, and not a submission that is accepted. -/
def expectsReply (state : ConnectionState) (frame : PduFrame) : Bool :=
  !frame.isResponse && match frame.pdu with
    | .deliverSmResp => false
    | .genericNack => false
    | .submitSm _ => !state.canSend
    | _ => true

/-- **Everything a session can do about a frame**, and when. -/
inductive Decision (state : ConnectionState) (frame : PduFrame) : Reaction → Prop
  | bind {kind : BindKind} {fields : BindFields}
      (h : AcceptsBind nets self state frame kind fields) : Decision state frame (.bind kind fields)
  | unbind (h : AcceptsUnbind state frame) : Decision state frame .unbind
  | submit {sm : SubmitSm} (h : acceptsSubmit state frame = true) : Decision state frame (.submit sm)
  | reply {header : Header} {pdu : Pdu} (hseq : header.sequence = frame.sequence)
      (h : expectsReply state frame = true) : Decision state frame (.reply header pdu)
  | settle (h : expectsReply state frame = false) (hs : acceptsSubmit state frame = false) :
      Decision state frame .settle
  | ignore (h : expectsReply state frame = false) (hs : acceptsSubmit state frame = false) :
      Decision state frame .ignore

variable {nets self}

theorem admits_eq_true {kind : BindKind} {fields : BindFields} :
    admits nets self kind fields = true ↔
      ∃ creds, self.credentials.validate fields.systemId fields.password = some creds ∧
        creds.enabled = true ∧ creds.isBindAllowed kind.bindType = true ∧
        creds.isIpAllowed nets self.peerIp = true := by
  unfold admits
  cases self.credentials.validate fields.systemId fields.password with
  | none => exact ⟨nofun, fun ⟨_, h, _⟩ => nomatch h⟩
  | some creds =>
    simp only [Bool.and_eq_true, Option.some.injEq, exists_eq_left', and_assoc]

/-- A frame that is to be answered is no accepted submission. -/
theorem acceptsSubmit_of_expectsReply {state : ConnectionState} {frame : PduFrame}
    (h : expectsReply state frame = true) : acceptsSubmit state frame = false := by
  unfold expectsReply at h
  unfold acceptsSubmit
  cases hpdu : frame.pdu with
  | submitSm sm =>
    rw [hpdu] at h
    simp only [Bool.and_eq_true, Bool.not_eq_true'] at h
    simp only [h.2, Bool.and_false]
  | _ => simp only [Bool.and_false]

theorem decision_bind {state : ConnectionState} {frame : PduFrame} {kind : BindKind}
    {fields : BindFields} (hresp : frame.isResponse = false)
    (hbind : bindOf frame.pdu = some (kind, fields)) (hreply : expectsReply state frame = true) :
    Decision nets self state frame (reactBind nets self state frame kind fields) := by
  unfold reactBind
  by_cases hopen : state ≠ .opened
  · rw [if_pos hopen]
    exact .reply rfl hreply
  · rw [if_neg hopen]
    cases hadmits : admits nets self kind fields with
    | true => exact .bind ⟨hresp, hbind, not_not.mp hopen, admits_eq_true.mp hadmits⟩
    | false => exact .reply rfl hreply

variable (nets self) in
theorem react_decision (state : ConnectionState) (frame : PduFrame) :
    Decision nets self state frame (react nets self state frame) := by
  unfold react
  cases hresp : frame.isResponse with
  | true =>
    refine .settle ?_ ?_
    · simp only [expectsReply, hresp, Bool.not_true, Bool.false_and]
    · simp only [acceptsSubmit, hresp, Bool.not_true, Bool.false_and]
  | false =>
    simp only [Bool.false_eq_true, if_false]
    -- what is due for a request depends on its PDU only, and on the state for a submission
    have hdue : expectsReply state frame = match frame.pdu with
        | .deliverSmResp => false
        | .genericNack => false
        | .submitSm _ => !state.canSend
        | _ => true := by
      simp only [expectsReply, hresp, Bool.not_false, Bool.true_and]
    cases hpdu : frame.pdu with
    | bindTransmitter fields =>
      rw [hpdu] at hdue
      exact decision_bind hresp (by rw [hpdu]; rfl) hdue
    | bindReceiver fields =>
      rw [hpdu] at hdue
      exact decision_bind hresp (by rw [hpdu]; rfl) hdue
    | bindTransceiver fields =>
      rw [hpdu] at hdue
      exact decision_bind hresp (by rw [hpdu]; rfl) hdue
    | unbind =>
      rw [hpdu] at hdue
      cases hbound : state.isBound with
      | true => exact .unbind ⟨hresp, hpdu, hbound⟩
      | false => exact .reply rfl hdue
    | submitSm sm =>
      rw [hpdu] at hdue
      cases hsend : state.canSend with
      | true =>
        refine .submit ?_
        simp only [acceptsSubmit, hresp, hpdu, hsend, Bool.not_false, Bool.and_self]
      | false =>
        rw [hsend] at hdue
        exact .reply rfl hdue
    | deliverSmResp =>
      rw [hpdu] at hdue
      exact .ignore hdue (by simp only [acceptsSubmit, hpdu, Bool.and_false])
    | genericNack =>
      rw [hpdu] at hdue
      exact .ignore hdue (by simp only [acceptsSubmit, hpdu, Bool.and_false])
    | _ =>
      rw [hpdu] at hdue
      exact .reply rfl hdue

/-- What is due for a frame: one PDU with its sequence number, or none; one published submission with
    its sequence number, or none; and a new connection state only for a bind or an unbind. -/
structure AnsweredOnce (nets : IpNets Ip Net) (self : SmppSession Ip Net) (frame : PduFrame) (c c' : Conn) : Prop where
  reply : expectsReply c.state frame = true →
    ∃ header pdu, c'.written = c.written ++ [(header, pdu)] ∧ header.sequence = frame.sequence
  silent : expectsReply c.state frame = false → c'.written = c.written
  submit : acceptsSubmit c.state frame = true →
    ∃ e, c'.published = c.published ++ [e] ∧ e.sequenceNumber = frame.sequence
  quiet : acceptsSubmit c.state frame = false → c'.published = c.published
  state : c'.state ≠ c.state →
    (∃ kind fields, AcceptsBind nets self c.state frame kind fields) ∨ AcceptsUnbind c.state frame

/-- A bind is answered, and nothing is published for it. -/
theorem AcceptsBind.due {state : ConnectionState} {frame : PduFrame} {kind : BindKind}
    {fields : BindFields} (h : AcceptsBind nets self state frame kind fields) :
    expectsReply state frame = true := by
  obtain ⟨hresp, hbind, -, -⟩ := h
  unfold expectsReply
  rw [hresp]
  cases hpdu : frame.pdu <;> rw [hpdu] at hbind <;> first | rfl | cases hbind

theorem AcceptsUnbind.due {state : ConnectionState} {frame : PduFrame}
    (h : AcceptsUnbind state frame) : expectsReply state frame = true := by
  unfold expectsReply
  rw [h.1, h.2.1]
  rfl

/-- An accepted submission is not answered at once. -/
theorem expectsReply_of_acceptsSubmit {state : ConnectionState} {frame : PduFrame}
    (h : acceptsSubmit state frame = true) : expectsReply state frame = false := by
  cases hreply : expectsReply state frame with
  | false => rfl
  | true =>
    rw [acceptsSubmit_of_expectsReply hreply] at h
    cases h

section Answers

variable {frame : PduFrame} {c c' : Conn}

/-- A frame that is to be answered, with its one PDU. -/
theorem AnsweredOnce.of_reply {header : Header} {pdu : Pdu} (hdue : expectsReply c.state frame = true)
    (hwritten : c'.written = c.written ++ [(header, pdu)]) (hseq : header.sequence = frame.sequence)
    (hpublished : c'.published = c.published)
    (hstate : c'.state ≠ c.state → (∃ kind fields, AcceptsBind nets self c.state frame kind fields) ∨
      AcceptsUnbind c.state frame) : AnsweredOnce nets self frame c c' := by
  have hsub := acceptsSubmit_of_expectsReply hdue
  refine ⟨fun _ => ⟨header, pdu, hwritten, hseq⟩, fun h => ?_, fun h => ?_, fun _ => hpublished,
    hstate⟩
  · rw [hdue] at h
    cases h
  · rw [hsub] at h
    cases h

/-- A frame for which nothing is due. -/
theorem AnsweredOnce.of_silence (hdue : expectsReply c.state frame = false)
    (hsub : acceptsSubmit c.state frame = false) (hwritten : c'.written = c.written)
    (hpublished : c'.published = c.published) (hstate : c'.state = c.state) :
    AnsweredOnce nets self frame c c' := by
  refine ⟨fun h => ?_, fun _ => hwritten, fun h => ?_, fun _ => hpublished, fun h => absurd hstate h⟩
  · rw [hdue] at h
    cases h
  · rw [hsub] at h
    cases h

end Answers

/-- **Exactly one immediate reply per request**: in every connection state and for every frame, when
    the writes succeed, a request is answered by one PDU with its sequence number, or published when it
    is a submission that is accepted; nothing else is written, and only an accepted bind or unbind
    changes the state of the connection. -/
theorem one_reply_per_request (nets : IpNets Ip Net) (self : SmppSession Ip Net) (frame : PduFrame)
    (env : Nat → SessionEnv) (c : Conn) (hsend : ∀ i, (env i).sendError = none) :
    AnsweredOnce nets self frame c (handled nets self frame env c).2 := by
  obtain ⟨i, heq⟩ := handled_eq nets self frame env c
  have hdecision := react_decision nets self c.state frame
  rw [heq]
  generalize react nets self c.state frame = reaction at hdecision
  cases hdecision with
  | bind h =>
    dsimp only [Reaction.after]
    rw [hsend i]
    exact .of_reply h.due rfl rfl rfl fun _ => Or.inl ⟨_, _, h⟩
  | unbind h =>
    dsimp only [Reaction.after]
    rw [hsend i]
    exact .of_reply h.due rfl rfl rfl fun _ => Or.inr h
  | submit h =>
    have hdue := expectsReply_of_acceptsSubmit h
    refine ⟨fun hdue' => ?_, fun _ => rfl, fun _ => ⟨_, rfl, rfl⟩, fun h' => ?_, fun hne => absurd rfl hne⟩
    · rw [hdue] at hdue'
      cases hdue'
    · rw [h] at h'
      cases h'
  | reply hseq h =>
    dsimp only [Reaction.after]
    rw [hsend i]
    exact .of_reply h rfl hseq rfl fun hne => absurd rfl hne
  | settle h hs => exact .of_silence h hs rfl rfl rfl
  | ignore h hs => exact .of_silence h hs rfl rfl rfl

/-- A session that lets everybody in, for the samples. -/
def openSession : SmppSession UInt8 UInt8 := ⟨⟨1⟩, 192, openCredentialStore⟩

/-- Surroundings in which writes succeed. -/
def quietEnv : SessionEnv := ⟨⟨0, 0⟩, 0, none⟩

/-- An `enquire_link` on a connection that is not even bound. -/
theorem one_reply_to_enquire_link :
    AnsweredOnce tenNet openSession ⟨⟨.enquireLink, 7, .ok⟩, .enquireLink, false⟩ (.new 0)
        (handled tenNet openSession ⟨⟨.enquireLink, 7, .ok⟩, .enquireLink, false⟩ (fun _ => quietEnv)
          (.new 0)).2 ∧
      expectsReply .opened ⟨⟨.enquireLink, 7, .ok⟩, .enquireLink, false⟩ = true :=
  ⟨one_reply_per_request tenNet openSession _ _ _ fun _ => rfl, rfl⟩

/-! ## Sequences of PDUs -/

variable (nets self)

/-- A frame that comes in, and the surroundings of the calls made for it. -/
structure Input where
  frame : PduFrame
  env : Nat → SessionEnv

/-- One PDU handled.  The next one may follow even after an error, at which the loop would end. -/
def receive (c : Conn) (input : Input) : Option Conn :=
  some (handled nets self input.frame input.env c).2

/-- What the session has agreed to. -/
inductive Acceptance where
  | bind (kind : BindKind) (fields : BindFields)
  | unbind

/-- The acceptance is one of a bind. -/
def Acceptance.isBind : Acceptance → Bool
  | .bind _ _ => true
  | .unbind => false

/-- What a frame is accepted as, if it is a bind or an unbind that is accepted. -/
def acceptance (state : ConnectionState) (frame : PduFrame) : Option Acceptance :=
  match react nets self state frame with
  | .bind kind fields => some (.bind kind fields)
  | .unbind => some .unbind
  | _ => none

/-- The binds and unbinds accepted along a sequence of PDUs. -/
def history : Conn → List Input → List Acceptance
  | _, [] => []
  | c, input :: rest =>
    (acceptance nets self c.state input.frame).toList ++
      history (handled nets self input.frame input.env c).2 rest

/-- The store validated the bind, and the credentials are enabled, allow it and allow the peer. -/
def Validated (kind : BindKind) (fields : BindFields) : Prop :=
  ∃ creds, self.credentials.validate fields.systemId fields.password = some creds ∧
    creds.enabled = true ∧ creds.isBindAllowed kind.bindType = true ∧
    creds.isIpAllowed nets self.peerIp = true

/-- Where a connection is after what it has accepted: it awaits a bind, is bound by the one it has
    accepted, or has been unbound. -/
inductive Stage (c : Conn) : List Acceptance → Prop
  | awaiting (hstate : c.state = .opened) : Stage c []
  | bound {kind : BindKind} {fields : BindFields} {pdu : Pdu} (hkind : bindOf pdu = some (kind, fields))
      (hvalid : Validated nets self kind fields) (hstate : c.state = kind.bound)
      (hsystem : c.systemId = some fields.systemId) : Stage c [.bind kind fields]
  | unbound {kind : BindKind} {fields : BindFields} (hstate : c.state = .unbinding ∨ c.state = .closed) :
      Stage c [.bind kind fields, .unbind]

variable {nets self}

theorem bindOf_kind {pdu : Pdu} {kind : BindKind} {fields : BindFields}
    (h : bindOf pdu = some (kind, fields)) :
    kind = .transmitter ∨ kind = .receiver ∨ kind = .transceiver := by
  cases pdu <;> cases h
  · exact Or.inl rfl
  · exact Or.inr (Or.inl rfl)
  · exact Or.inr (Or.inr rfl)

/-- A bound state is not `Open`, and bound. -/
theorem isBound_of_bindOf {pdu : Pdu} {kind : BindKind} {fields : BindFields}
    (h : bindOf pdu = some (kind, fields)) : kind.bound.isBound = true := by
  rcases bindOf_kind h with rfl | rfl | rfl <;> rfl

/-- A frame that is handled, as its reaction: what is accepted, and what the connection becomes. -/
theorem handled_cases (nets : IpNets Ip Net) (self : SmppSession Ip Net) (input : Input) (c : Conn) :
    ∃ reaction i, Decision nets self c.state input.frame reaction ∧
      react nets self c.state input.frame = reaction ∧
      (handled nets self input.frame input.env c).2 =
        reaction.after self input.frame (input.env i) c := by
  obtain ⟨i, heq⟩ := handled_eq nets self input.frame input.env c
  exact ⟨_, i, react_decision nets self c.state input.frame, rfl, heq⟩

/-- A write changes nothing but what is written. -/
@[simp] theorem wrote_state (error : Option String) (header : Header) (pdu : Pdu) (c : Conn) :
    (wrote error header pdu c).state = c.state := by
  cases error <;> rfl

@[simp] theorem wrote_systemId (error : Option String) (header : Header) (pdu : Pdu) (c : Conn) :
    (wrote error header pdu c).systemId = c.systemId := by
  cases error <;> rfl

@[simp] theorem wrote_published (error : Option String) (header : Header) (pdu : Pdu) (c : Conn) :
    (wrote error header pdu c).published = c.published := by
  cases error <;> rfl

section Stages

variable {c c' : Conn} {accepted : List Acceptance}

/-- The stage looks at the state and the system id only. -/
theorem Stage.congr (h : Stage nets self c accepted) (hstate : c'.state = c.state)
    (hsystem : c'.systemId = c.systemId) : Stage nets self c' accepted := by
  cases h with
  | awaiting hopen => exact .awaiting (hstate.trans hopen)
  | bound hkind hvalid hbound hid =>
    exact .bound hkind hvalid (hstate.trans hbound) (hsystem.trans hid)
  | unbound hgone =>
    rw [← hstate] at hgone
    exact .unbound hgone

/-- Only a connection that awaits its bind is `Open`. -/
theorem Stage.of_opened (h : Stage nets self c accepted) (hopen : c.state = .opened) :
    accepted = [] := by
  cases h with
  | awaiting => rfl
  | bound hkind _ hbound _ =>
    have hb := isBound_of_bindOf hkind
    rw [← hbound, hopen] at hb
    cases hb
  | unbound hgone =>
    rw [hopen] at hgone
    rcases hgone with h | h <;> cases h

/-- Only a connection whose bind was the last thing accepted is bound. -/
theorem Stage.of_bound (h : Stage nets self c accepted) (hbound : c.state.isBound = true) :
    ∃ kind fields pdu, bindOf pdu = some (kind, fields) ∧ Validated nets self kind fields ∧
      c.state = kind.bound ∧ c.systemId = some fields.systemId ∧ accepted = [.bind kind fields] := by
  cases h with
  | awaiting hopen =>
    rw [hopen] at hbound
    cases hbound
  | bound hkind hvalid hstate hid => exact ⟨_, _, _, hkind, hvalid, hstate, hid, rfl⟩
  | unbound hgone =>
    rcases hgone with h | h <;> rw [h] at hbound <;> cases hbound

/-- At most one bind has been accepted, whatever the stage. -/
theorem Stage.binds_le_one (h : Stage nets self c accepted) :
    accepted.countP Acceptance.isBind ≤ 1 := by
  cases h with
  | awaiting => exact Nat.zero_le 1
  | bound => exact Nat.le_refl 1
  | unbound => exact Nat.le_refl 1

/-- **One PDU keeps the stage**, with what is accepted of it. -/
theorem Stage.received (h : Stage nets self c accepted) (input : Input) :
    Stage nets self (handled nets self input.frame input.env c).2
      (accepted ++ (acceptance nets self c.state input.frame).toList) := by
  obtain ⟨reaction, i, hdecision, hreact, heq⟩ := handled_cases nets self input c
  rw [heq, acceptance, hreact]
  cases hdecision with
  | bind hbind =>
    -- nothing was accepted before: the connection is still `Open`
    obtain ⟨-, hkind, hopen, hvalid⟩ := hbind
    rw [h.of_opened hopen]
    refine .bound hkind hvalid ?_ ?_
    · rw [Reaction.after, wrote_state]
    · rw [Reaction.after, wrote_systemId]
  | unbind hunbind =>
    obtain ⟨kind, fields, pdu, -, -, -, -, rfl⟩ := h.of_bound hunbind.2.2
    -- the handler writes `Unbinding`, and `Closed` once the response is out
    refine .unbound ?_
    rw [Reaction.after]
    cases (input.env i).sendError with
    | none => exact Or.inr rfl
    | some e => exact Or.inl rfl
  | submit => exact (List.append_nil accepted).symm ▸ h.congr rfl rfl
  | reply =>
    refine (List.append_nil accepted).symm ▸ h.congr ?_ ?_
    · rw [Reaction.after, wrote_state]
    · rw [Reaction.after, wrote_systemId]
  | settle => exact (List.append_nil accepted).symm ▸ h.congr rfl rfl
  | ignore => exact (List.append_nil accepted).symm ▸ h.congr rfl rfl

/-- **Every sequence of PDUs keeps the stage.** -/
theorem Stage.along {inputs : List Input} (h : Stage nets self c accepted)
    (hrun : run (receive nets self) c inputs = some c') :
    Stage nets self c' (accepted ++ history nets self c inputs) := by
  induction inputs generalizing c accepted with
  | nil =>
    cases hrun
    rw [history, List.append_nil]
    exact h
  | cons input inputs ih =>
    obtain ⟨d, hd, hrest⟩ := run_cons_eq_some.mp hrun
    cases hd
    rw [history, ← List.append_assoc]
    exact ih (h.received input) hrest

end Stages

/-- What is published of a frame, if anything: the submission, under the system id of the
    connection. -/
theorem published_cases (nets : IpNets Ip Net) (self : SmppSession Ip Net) (input : Input) (c : Conn) :
    (handled nets self input.frame input.env c).2.published = c.published ∨
      c.state.canSend = true ∧ acceptance nets self c.state input.frame = none ∧
        ∃ e, (handled nets self input.frame input.env c).2.published = c.published ++ [e] ∧
          e.systemId = c.systemId.getD "" ∧ e.sessionId = self.sessionId ∧
          e.sequenceNumber = input.frame.sequence := by
  obtain ⟨reaction, i, hdecision, hreact, heq⟩ := handled_cases nets self input c
  rw [heq, acceptance, hreact]
  cases hdecision with
  | bind =>
    refine Or.inl ?_
    rw [Reaction.after, wrote_published]
  | unbind =>
    refine Or.inl ?_
    rw [Reaction.after]
    cases (input.env i).sendError <;> rfl
  | submit hsubmit =>
    refine Or.inr ⟨?_, rfl, _, rfl, rfl, rfl, rfl⟩
    unfold acceptsSubmit at hsubmit
    cases hpdu : input.frame.pdu with
    | submitSm sm =>
      rw [hpdu, Bool.and_eq_true] at hsubmit
      exact hsubmit.2
    | _ =>
      rw [hpdu, Bool.and_false] at hsubmit
      cases hsubmit
  | reply =>
    refine Or.inl ?_
    rw [Reaction.after, wrote_published]
  | settle => exact Or.inl rfl
  | ignore => exact Or.inl rfl

/-- A bind that lets its client send is one as a transmitter or a transceiver. -/
theorem sender_of_bindOf {pdu : Pdu} {kind : BindKind} {fields : BindFields}
    (h : bindOf pdu = some (kind, fields)) (hsend : kind.bound.canSend = true) :
    kind = .transmitter ∨ kind = .transceiver := by
  rcases bindOf_kind h with rfl | rfl | rfl
  · exact Or.inl rfl
  · cases hsend
  · exact Or.inr rfl

theorem isBound_of_canSend {state : ConnectionState} (h : state.canSend = true) :
    state.isBound = true := by
  cases state <;> first | rfl | cases h

/-- **Submissions are authorised**: for every credential store, peer and sequence of PDUs on a new
    connection, at most one bind has been accepted; and when the next PDU gets something published, it is
    one envelope, with the session's id, the sequence number of the PDU and the system id of the bind
    that was accepted before, as a transmitter or a transceiver and with all four checks passed, and
    with no other bind and no unbind accepted besides. -/
theorem submissions_authorised (nets : IpNets Ip Net) (self : SmppSession Ip Net) (now : Instant)
    (before : List Input) (input : Input) (c c' : Conn)
    (hbefore : run (receive nets self) (.new now) before = some c)
    (hstep : receive nets self c input = some c') :
    (history nets self (.new now) (before ++ [input])).countP Acceptance.isBind ≤ 1 ∧
      (c'.published ≠ c.published → ∃ kind fields creds e,
        history nets self (.new now) before = [.bind kind fields] ∧
        (kind = .transmitter ∨ kind = .transceiver) ∧
        self.credentials.validate fields.systemId fields.password = some creds ∧
        creds.enabled = true ∧ creds.isBindAllowed kind.bindType = true ∧
        creds.isIpAllowed nets self.peerIp = true ∧
        c'.published = c.published ++ [e] ∧ e.systemId = fields.systemId ∧
        e.sessionId = self.sessionId ∧ e.sequenceNumber = input.frame.sequence) := by
  have hopen : Stage nets self (Conn.new now) [] := .awaiting rfl
  constructor
  · have hall : run (receive nets self) (.new now) (before ++ [input]) = some c' := by
      rw [run_append, hbefore]
      exact run_cons_eq_some.mpr ⟨c', hstep, rfl⟩
    exact (hopen.along hall).binds_le_one
  · intro hpublished
    cases hstep
    rcases published_cases nets self input c with hsame | ⟨hsend, -, e, he, hid, hsession, hseq⟩
    · exact absurd hsame hpublished
    have hstage : Stage nets self c (history nets self (.new now) before) := hopen.along hbefore
    obtain ⟨kind, fields, pdu, hkind, ⟨creds, hvalidate, henabled, hallowed, hip⟩, hstate, hsystem,
      hhistory⟩ := hstage.of_bound (isBound_of_canSend hsend)
    rw [hsystem] at hid
    rw [hstate] at hsend
    exact ⟨kind, fields, creds, e, hhistory, sender_of_bindOf hkind hsend, hvalidate, henabled, hallowed,
      hip, he, hid, hsession, hseq⟩

/-- A bind as a transmitter that comes in. -/
def bindInput : Input :=
  ⟨⟨⟨.other "bind_transmitter", 1, .ok⟩, .bindTransmitter ⟨"esme", "secret"⟩, false⟩, fun _ => quietEnv⟩

/-- A submission that comes in. -/
def submitInput : Input :=
  ⟨⟨⟨.other "submit_sm", 2, .ok⟩,
    .submitSm { sourceAddr := "100", destAddr := "200", shortMessage := [] }, false⟩, fun _ => quietEnv⟩

/-- The connection after the bind. -/
def boundConn : Conn := (handled tenNet openSession bindInput.frame bindInput.env (.new 0)).2

/-- The connection after the bind and the submission. -/
def submittedConn : Conn := (handled tenNet openSession submitInput.frame submitInput.env boundConn).2

/-- A bind, then a submission: it is published under the system id of the bind. -/
theorem submission_authorised_after_bind :
    ∃ (kind : BindKind) (fields : BindFields) (e : MessageEnvelope),
      history tenNet openSession (.new 0) [bindInput] = [.bind kind fields] ∧
      (kind = .transmitter ∨ kind = .transceiver) ∧
      submittedConn.published = boundConn.published ++ [e] ∧ e.systemId = fields.systemId ∧
      e.sessionId = openSession.sessionId ∧ e.sequenceNumber = submitInput.frame.sequence := by
  have hpublished : submittedConn.published ≠ boundConn.published := List.cons_ne_nil _ _
  obtain ⟨kind, fields, -, e, hhistory, hkind, -, -, -, -, he⟩ :=
    (submissions_authorised tenNet openSession 0 [bindInput] submitInput boundConn submittedConn rfl
      rfl).2 hpublished
  exact ⟨kind, fields, e, hhistory, hkind, he⟩

end Smppd.Listener
