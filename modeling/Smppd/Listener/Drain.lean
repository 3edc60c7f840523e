/-
  A session while its listener DRAINS (`Listener::drain_connections`).

  Two tasks hold one connection: the session, turn after turn, and the drain, which calls
  `initiate_close`.  Between two calls of one anything of the other may happen.

  The dispatcher looks at the connection state once and the handlers write it, or publish, some calls
  later without looking again.  From the look that lets it through to the write a body is COMMITTED:
  `Committed` says so of what is left of the body.  A drain that writes `Closed` just then is
  overwritten; `closed_is_never_left` says that nothing else ever leaves `Closed`.
-/
import Smppd.Lib.Machine
import Smppd.Listener.Dispatch

set_option linter.unusedVariables false

namespace Smppd.Listener

open Smppd.Store Smppd.Gateway Smppd.Bootstrap Smppd.Filter Prog Machine

/-! ## The two tasks -/

/-- Who holds the connection. -/
inductive Party where
  | session
  | drain
  deriving DecidableEq

/-- A connection and what is left of the body of each task. -/
abbrev Shared := Pool Call Call.Res Party Conn

/-- A new connection, with both tasks at rest. -/
def Shared.new (now : Instant) : Shared := ⟨.new now, fun _ => .ret ()⟩

/-- What can happen next. -/
inductive Move where
  /-- The loop of the session goes round once more. -/
  | turn (event : Turn)
  /-- The listener calls `initiate_close`. -/
  | drain
  /-- One of the two makes its next call. -/
  | call (party : Party) (env : SessionEnv)

section System

variable {Ip Net : Type} (nets : IpNets Ip Net) (self : SmppSession Ip Net) (requestTimeout : Duration)

/-- One step of the two tasks. -/
def sharedStep (c : Shared) : Move → Option Shared
  | .turn event =>
    if (c.task .session).idle && !c.state.left then
      some ⟨c.state, Function.update c.task .session (turn nets self requestTimeout event)⟩
    else none
  | .drain =>
    if (c.task .drain).idle then some ⟨c.state, Function.update c.task .drain initiateClose⟩
    else none
  | .call party env => c.advance (perform self.sessionId) party env

end System

/-! ## Past the check -/

/-- The call is a write of a state other than `Closed`, or a publication. -/
def Call.Proceeds : Call → Prop
  | .putState s => s ≠ .closed
  | .publish _ => True
  | _ => False

/-- Whatever the calls on the way answer, what is left of the body comes to a write of a state other
    than `Closed`, or to a publication. -/
inductive Committed {α : Type} : Body α → Prop
  | now {call : Call} {k : call.Res → Body α} (h : call.Proceeds) : Committed (.call call k)
  | later {call : Call} {k : call.Res → Body α} (h : ∀ r, Committed (k r)) : Committed (.call call k)

/-- A body that has returned has nothing before it. -/
theorem not_committed_of_idle {α : Type} {p : Body α} (h : p.idle = true) : ¬ Committed p := by
  intro hcommitted
  cases hcommitted <;> cases h

/-- What a body may do: `free`, it must look at the state before it proceeds; `cleared`, it has found
    the state other than `Closed` and proceeds once. -/
inductive Gate where
  | free
  | cleared

/-- What each call of a session does to its gate. -/
def gated : Spec Call Call.Res Gate
  | .state, post, .free => post .closed .free ∧ ∀ s, s ≠ .closed → post s .free ∨ post s .cleared
  | .putState state, post, .free => state = .closed ∧ post () .free
  | .putState state, post, .cleared => state ≠ .closed ∧ post () .free
  | .publish _, _, .free => False
  | .publish _, post, .cleared => post () .free
  | _, post, g => ∀ r, post r g

/-- What each call of a drain does: it writes nothing but `Closed`. -/
def closes : Spec Call Call.Res Gate
  | .putState state, post, g => state = .closed ∧ post () g
  | .publish _, _, _ => False
  | _, post, g => ∀ r, post r g

/-- The specification of each task. -/
def partySpec : Party → Spec Call Call.Res Gate
  | .session => gated
  | .drain => closes

/-- A body ends with its gate free. -/
def released (_ : Party) (g : Gate) : Prop := g = .free

/-- A body that is cleared is committed: it cannot end before it has proceeded. -/
theorem committed_of_cleared {α : Type} {p : Body α}
    (h : p.wp gated (fun _ g => g = .free) .cleared) : Committed p := by
  induction p with
  | ret a => cases h
  | call op k ih =>
    cases op with
    | putState state => exact .now h.1
    | publish e => exact .now trivial
    | _ => exact .later fun r => ih r (h r)

/-! ## The bodies keep their specification -/

section Bodies

variable {Ip Net : Type} (nets : IpNets Ip Net) (self : SmppSession Ip Net)

/-- A look at the state: the rest goes on as it may, cleared only if the state is not `Closed`. -/
theorem wp_look {α : Type} {k : ConnectionState → Body α} {post : α → Gate → Prop}
    (h : ∀ s, (k s).wp gated post .free ∨ s ≠ .closed ∧ (k s).wp gated post .cleared) :
    Prog.wp gated (.call .state k) post .free := by
  refine ⟨?_, fun s _ => (h s).imp_right fun hs => hs.2⟩
  rcases h .closed with hfree | ⟨hne, -⟩
  · exact hfree
  · exact absurd rfl hne

theorem wp_sendPdu (header : Header) (pdu : Pdu) {post : Handled → Gate → Prop} {g : Gate}
    (hpost : ∀ r, post r g) : (sendPdu header pdu).wp gated post g := by
  unfold sendPdu
  cases g with
  | free =>
    intro answer
    cases answer with
    | none => exact hpost _
    | some e => exact hpost _
  | cleared =>
    intro answer
    cases answer with
    | none => exact hpost _
    | some e => exact hpost _

/-- Closing a connection needs no clearance. -/
theorem wp_setState_closed {post : Unit → Gate → Prop} (hpost : post () .free) :
    (setState .closed).wp gated post .free :=
  ⟨⟨rfl, hpost⟩, fun s _ => Or.inl ⟨rfl, hpost⟩⟩

/-- Any other state takes the clearance. -/
theorem wp_setState {state : ConnectionState} (hstate : state ≠ .closed) {post : Unit → Gate → Prop}
    (hpost : post () .free) : (setState state).wp gated post .cleared :=
  fun s => ⟨hstate, hpost⟩

theorem wp_leaveLoop : leaveLoop.wp gated (fun _ g => g = .free) .free := by
  unfold leaveLoop
  rw [wp_bind]
  exact wp_setState_closed fun _ => rfl

theorem ne_closed_of_isBound {state : ConnectionState} (h : state.isBound = true) :
    state ≠ .closed := by
  rintro rfl
  cases h

/-- A bind handler that is cleared. -/
theorem wp_handleBind {pdu : Pdu} {kind : BindKind} {fields : BindFields}
    (hkind : bindOf pdu = some (kind, fields)) (header : Header) {post : Handled → Gate → Prop}
    (hpost : ∀ r, post r .free) :
    (handleBind nets self kind header fields).wp gated post .free ∨
      (handleBind nets self kind header fields).wp gated post .cleared := by
  cases hadmits : admits nets self kind fields with
  | false =>
    rw [handleBind_refused nets self hadmits]
    exact Or.inl (wp_sendPdu _ _ hpost)
  | true =>
    rw [handleBind_admitted nets self hadmits]
    refine Or.inr ?_
    unfold acceptBind
    intro _
    refine (wp_bind gated _ _ post _).mpr (wp_setState ?_ (wp_sendPdu _ _ hpost))
    intro hclosed
    have hbound := isBound_of_bindOf hkind
    rw [hclosed] at hbound
    cases hbound

/-- The gate of the dispatcher before a bind handler. -/
theorem wp_bindGate {pdu : Pdu} {kind : BindKind} {fields : BindFields}
    (hkind : bindOf pdu = some (kind, fields)) (frame : PduFrame) (state : ConnectionState)
    {post : Handled → Gate → Prop} (hpost : ∀ r, post r .free) :
    let body := if state ≠ .opened then sendError frame.sequence .invalidBindStatus
      else handleBind nets self kind frame.header fields
    body.wp gated post .free ∨ state ≠ .closed ∧ body.wp gated post .cleared := by
  by_cases hopen : state ≠ .opened
  · rw [if_pos hopen]
    exact Or.inl (wp_sendPdu _ _ hpost)
  · rw [if_neg hopen]
    rcases wp_handleBind nets self hkind frame.header hpost with hfree | hcleared
    · exact Or.inl hfree
    · refine Or.inr ⟨?_, hcleared⟩
      rw [not_not.mp hopen]
      nofun

theorem wp_handleUnbind (header : Header) {post : Handled → Gate → Prop} (hpost : ∀ r, post r .free) :
    (handleUnbind header).wp gated post .cleared := by
  unfold handleUnbind
  rw [wp_bind]
  refine wp_setState (by decide) ?_
  rw [wp_bind]
  refine wp_sendPdu _ _ fun sent => ?_
  cases sent with
  | error e => exact hpost _
  | ok u =>
    rw [wp_bind]
    exact wp_setState_closed (hpost _)

theorem wp_handleSubmitSm (header : Header) (submit : SubmitSm) {post : Handled → Gate → Prop}
    (hpost : ∀ r, post r .free) : (handleSubmitSm header submit).wp gated post .cleared :=
  fun clientSystemId envelope => hpost _

/-- **`handle_pdu` proceeds only after it has found the connection other than `Closed`.** -/
theorem wp_handlePdu (frame : PduFrame) {post : Handled → Gate → Prop} (hpost : ∀ r, post r .free) :
    (handlePdu nets self frame).wp gated post .free := by
  unfold handlePdu
  simp only [request_bind]
  refine wp_look fun s => ?_
  cases hresp : frame.isResponse with
  | true => exact Or.inl fun taken => hpost _
  | false =>
    simp only [Bool.false_eq_true, if_false]
    cases hpdu : frame.pdu with
    | bindTransmitter fields =>
      have hkind : bindOf frame.pdu = some (.transmitter, fields) := congrArg bindOf hpdu
      exact wp_bindGate nets self hkind frame s hpost
    | bindReceiver fields =>
      have hkind : bindOf frame.pdu = some (.receiver, fields) := congrArg bindOf hpdu
      exact wp_bindGate nets self hkind frame s hpost
    | bindTransceiver fields =>
      have hkind : bindOf frame.pdu = some (.transceiver, fields) := congrArg bindOf hpdu
      exact wp_bindGate nets self hkind frame s hpost
    | unbind =>
      refine Or.inl (wp_look fun s => ?_)
      cases hbound : s.isBound with
      | false => exact Or.inl (wp_sendPdu _ _ hpost)
      | true => exact Or.inr ⟨ne_closed_of_isBound hbound, wp_handleUnbind frame.header hpost⟩
    | enquireLink => exact Or.inl (wp_sendPdu _ _ hpost)
    | submitSm submit =>
      refine Or.inl (wp_look fun s => ?_)
      cases hsend : s.canSend with
      | false => exact Or.inl (wp_sendPdu _ _ hpost)
      | true =>
        exact Or.inr ⟨ne_closed_of_isBound (isBound_of_canSend hsend),
          wp_handleSubmitSm frame.header submit hpost⟩
    | deliverSmResp => exact Or.inl (hpost _)
    | genericNack => exact Or.inl (hpost _)
    | _ => exact Or.inl (wp_sendPdu _ _ hpost)

theorem wp_sendEnquireLink {post : Handled → Gate → Prop} (hpost : ∀ r, post r .free) :
    sendEnquireLink.wp gated post .free := by
  unfold sendEnquireLink
  simp only [request_bind]
  intro seq _
  rw [wp_bind]
  refine wp_sendPdu _ _ fun sent => ?_
  cases sent with
  | error e => exact hpost _
  | ok u => exact fun _ => hpost _

/-- **A turn of the loop** ends with its gate free. -/
theorem wp_turn (requestTimeout : Duration) (event : Turn) :
    (turn nets self requestTimeout event).wp gated (fun _ g => g = .free) .free := by
  unfold turn
  simp only [request_bind]
  intro closing
  cases closing with
  | true => exact wp_leaveLoop
  | false =>
    cases event with
    | pdu frame =>
      intro _
      refine (wp_bind gated _ _ _ _).mpr (wp_handlePdu nets self frame fun r => ?_)
      cases r with
      | ok u => rfl
      | error e => exact wp_leaveLoop
    | hangup => exact wp_leaveLoop
    | idle =>
      refine wp_look fun s => Or.inl ?_
      cases s.isBound with
      | false => exact wp_leaveLoop
      | true =>
        refine (wp_bind gated _ _ _ _).mpr (wp_sendEnquireLink fun r => ?_)
        cases r with
        | ok u => rfl
        | error e => exact wp_leaveLoop
    | response response =>
      refine (wp_bind gated _ _ _ _).mpr (wp_sendPdu _ _ fun r => ?_)
      rfl
    | housekeeping => exact fun _ => rfl

/-- **A drain** writes nothing but `Closed`. -/
theorem wp_initiateClose : initiateClose.wp closes (fun _ g => g = .free) .free :=
  fun _ _ => ⟨rfl, rfl⟩

end Bodies

/-! ## Closed for good -/

section Runs

variable {Ip Net : Type} {nets : IpNets Ip Net} {self : SmppSession Ip Net} {requestTimeout : Duration}

/-- The step does not close the connection behind a session that is past its check. -/
def Spares (c : Shared) : Move → Prop
  | .call .drain _ => ∀ k, c.task .drain = .call (.putState .closed) k → ¬ Committed (c.task .session)
  | _ => True

/-- On a closed connection nobody is cleared. -/
def Sealed (c : Conn) (γ : Party → Gate) : Prop := c.state = .closed → γ .session = .free

/-- Both tasks keep their specification. -/
def Orderly (c : Shared) : Prop :=
  ∃ γ : Party → Gate, Pledged partySpec released Sealed c γ

theorem orderly_new (now : Instant) : Orderly (.new now) :=
  ⟨fun _ => .free, fun _ => rfl, fun party => by cases party <;> rfl⟩

/-- A call that does not proceed leaves a closed connection closed, and publishes nothing. -/
theorem perform_of_not_proceeds {sessionId : SessionId} {env : SessionEnv} {op : Call} {c : Conn}
    (h : ¬ op.Proceeds) (hclosed : c.state = .closed) :
    (perform sessionId env op c).2.state = .closed ∧
      (perform sessionId env op c).2.published = c.published := by
  cases op with
  | putState s => exact ⟨not_not.mp h, rfl⟩
  | publish e => exact absurd trivial h
  | send header pdu =>
    dsimp only [perform]
    cases env.sendError with
    | none => exact ⟨hclosed, rfl⟩
    | some e => exact ⟨hclosed, rfl⟩
  | _ => exact ⟨hclosed, rfl⟩

/-- Only a write of the state changes it. -/
theorem perform_state_of_ne {sessionId : SessionId} {env : SessionEnv} {op : Call} {c : Conn}
    (h : ∀ s, op ≠ .putState s) : (perform sessionId env op c).2.state = c.state := by
  cases op with
  | putState s => exact absurd rfl (h s)
  | send header pdu =>
    dsimp only [perform]
    cases env.sendError with
    | none => rfl
    | some e => rfl
  | _ => rfl

/-- A task whose gate is free does not proceed. -/
theorem not_proceeds_of_free {op : Call} {post : op.Res → Gate → Prop} (h : gated op post .free) :
    ¬ op.Proceeds := by
  cases op with
  | putState s => exact not_not.mpr h.1
  | publish e => exact absurd h not_false
  | _ => exact not_false

/-- A drain does not proceed. -/
theorem not_proceeds_of_closes {op : Call} {post : op.Res → Gate → Prop} {g : Gate}
    (h : closes op post g) : ¬ op.Proceeds := by
  cases op with
  | putState s => exact not_not.mpr h.1
  | publish e => exact absurd h not_false
  | _ => exact not_false

variable {c c' : Shared}

/-- **A closed connection stays closed**, and nothing more is published, at any step from an orderly
    state. -/
theorem Orderly.closed (h : Orderly c) {move : Move} (hclosed : c.state.state = .closed)
    (hstep : sharedStep nets self requestTimeout c move = some c') :
    c'.state.state = .closed ∧ c'.state.published = c.state.published := by
  obtain ⟨γ, hp⟩ := h
  cases move with
  | turn event =>
    obtain ⟨-, heq⟩ := Option.ite_none_right_eq_some.mp hstep
    cases heq
    exact ⟨hclosed, rfl⟩
  | drain =>
    obtain ⟨-, heq⟩ := Option.ite_none_right_eq_some.mp hstep
    cases heq
    exact ⟨hclosed, rfl⟩
  | call party env =>
    obtain ⟨op, k, htask, rfl⟩ := Pool.advance_eq_some.mp hstep
    have hwp := hp.each party
    rw [htask] at hwp
    refine perform_of_not_proceeds ?_ hclosed
    cases party with
    | session =>
      rw [hp.inv hclosed] at hwp
      exact not_proceeds_of_free hwp
    | drain => exact not_proceeds_of_closes hwp

/-- A session whose gate is free breaks no seal. -/
theorem sealed_free (s : Conn) (γ : Party → Gate) :
    Sealed s (Function.update γ .session .free) :=
  fun _ => Function.update_self Party.session Gate.free γ

/-- A call that leaves the state and the gate alone keeps the seal. -/
theorem Sealed.keep {s s' : Conn} {γ : Party → Gate} (h : Sealed s γ) (hstate : s'.state = s.state)
    (party : Party) : Sealed s' (Function.update γ party (γ party)) := by
  rw [Function.update_eq_self]
  exact fun hclosed => h (hstate.symm.trans hclosed)

/-- The calls of a session keep the seal. -/
theorem sealed_session {sessionId : SessionId} {env : SessionEnv} {s : Conn} {γ : Party → Gate}
    (hinv : Sealed s γ) (op : Call) (post : op.Res → Gate → Prop) (hop : gated op post (γ .session)) :
    ∃ g', post (perform sessionId env op s).1 g' ∧
      Sealed (perform sessionId env op s).2 (Function.update γ .session g') := by
  cases op with
  | state =>
    cases hg : γ .session with
    | free =>
      rw [hg] at hop
      by_cases hclosed : s.state = .closed
      · refine ⟨.free, ?_, sealed_free _ _⟩
        dsimp only [perform]
        rw [hclosed]
        exact hop.1
      · rcases hop.2 s.state hclosed with hfree | hcleared
        · exact ⟨.free, hfree, sealed_free _ _⟩
        · exact ⟨.cleared, hcleared, fun h => absurd h hclosed⟩
    | cleared =>
      rw [hg] at hop
      refine ⟨.cleared, hop _, fun hclosed => ?_⟩
      have hfree := hinv hclosed
      rw [hg] at hfree
      cases hfree
  | putState t =>
    cases hg : γ .session with
    | free =>
      rw [hg] at hop
      exact ⟨.free, hop.2, sealed_free _ _⟩
    | cleared =>
      rw [hg] at hop
      exact ⟨.free, hop.2, sealed_free _ _⟩
  | publish e =>
    cases hg : γ .session with
    | free =>
      rw [hg] at hop
      exact absurd hop not_false
    | cleared =>
      rw [hg] at hop
      exact ⟨.free, hop, sealed_free _ _⟩
  | _ =>
    refine ⟨γ .session, hop _, hinv.keep (perform_state_of_ne fun t ht => ?_) .session⟩
    cases ht

/-- The calls of a drain keep the seal, when it spares the session. -/
theorem sealed_drain {sessionId : SessionId} {env : SessionEnv} {s : Conn} {γ : Party → Gate}
    (hinv : Sealed s γ) (op : Call) (hspares : op = .putState .closed → γ .session = .free)
    (post : op.Res → Gate → Prop) (hop : closes op post (γ .drain)) :
    ∃ g', post (perform sessionId env op s).1 g' ∧
      Sealed (perform sessionId env op s).2 (Function.update γ .drain g') := by
  cases op with
  | putState t =>
    obtain ⟨rfl, hpost⟩ := hop
    refine ⟨γ .drain, hpost, fun _ => ?_⟩
    rw [Function.update_eq_self]
    exact hspares rfl
  | publish e => exact absurd hop not_false
  | _ =>
    refine ⟨γ .drain, hop _, hinv.keep (perform_state_of_ne fun t ht => ?_) .drain⟩
    cases ht

/-- **A step that spares the session keeps the two tasks in order.** -/
theorem Orderly.step (h : Orderly c) {move : Move} (hspares : Spares c move)
    (hstep : sharedStep nets self requestTimeout c move = some c') : Orderly c' := by
  obtain ⟨γ, hp⟩ := h
  cases move with
  | turn event =>
    obtain ⟨-, heq⟩ := Option.ite_none_right_eq_some.mp hstep
    cases heq
    exact ⟨_, hp.set .session (sealed_free _ _) (wp_turn nets self requestTimeout event)⟩
  | drain =>
    obtain ⟨-, heq⟩ := Option.ite_none_right_eq_some.mp hstep
    cases heq
    have hsealed : Sealed c.state (Function.update γ .drain .free) := by
      intro hclosed
      rw [Function.update_of_ne (by decide)]
      exact hp.inv hclosed
    exact ⟨_, hp.set .drain hsealed wp_initiateClose⟩
  | call party env =>
    cases party with
    | session =>
      obtain ⟨g', hp'⟩ := hp.advance hstep fun op k _ post hop => sealed_session hp.inv op post hop
      exact ⟨_, hp'⟩
    | drain =>
      obtain ⟨g', hp'⟩ := hp.advance hstep fun op k htask post hop => by
        refine sealed_drain hp.inv op (fun hop => ?_) post hop
        subst hop
        -- a session that were cleared would be committed
        cases hg : γ .session with
        | free => rfl
        | cleared =>
          have hwp := hp.each .session
          rw [hg] at hwp
          exact absurd (committed_of_cleared hwp) (hspares k htask)
      exact ⟨_, hp'⟩

/-- A run that spares the session goes from order to order. -/
theorem Orderly.run {moves : List Move} (h : Orderly c)
    (hmeets : Meets (sharedStep nets self requestTimeout) Spares c moves)
    (hrun : Machine.run (sharedStep nets self requestTimeout) c moves = some c') : Orderly c' :=
  meets_inv (fun _ _ _ horderly hok hstep => horderly.step hok hstep) h hmeets hrun

/-- **Closed is never left**, in any interleaving in which no drain closes the connection behind a session
    that is past its check: once the state is `Closed`, it stays `Closed`, and nothing is published any
    more. -/
theorem closed_is_never_left (nets : IpNets Ip Net) (self : SmppSession Ip Net)
    (requestTimeout : Duration) (now : Instant) (before after : List Move) (c c' : Shared)
    (hbefore : Machine.run (sharedStep nets self requestTimeout) (.new now) before = some c)
    (hafter : Machine.run (sharedStep nets self requestTimeout) c after = some c')
    (hmeets : Meets (sharedStep nets self requestTimeout) Spares (.new now) (before ++ after))
    (hclosed : c.state.state = .closed) :
    c'.state.state = .closed ∧ c'.state.published = c.state.published := by
  obtain ⟨hmeetsBefore, hmeetsAfter⟩ := (meets_append hbefore).mp hmeets
  have horderly : Orderly c := (orderly_new now).run hmeetsBefore hbefore
  let Inv : Shared → Prop := fun s =>
    Orderly s ∧ s.state.state = .closed ∧ s.state.published = c.state.published
  have hinv : Inv c' := by
    refine meets_inv (fun s move s' hs hok hstep => ?_) ⟨horderly, hclosed, rfl⟩ hmeetsAfter hafter
    obtain ⟨hstate, hpublished⟩ := hs.1.closed hs.2.1 hstep
    exact ⟨hs.1.step hok hstep, hstate, hpublished.trans hs.2.2⟩
  exact hinv.2

/-- **Closing behind the check is what goes wrong**: a session that is committed on a closed connection has
    a run in which it leaves `Closed`, or publishes. -/
theorem Committed.escapes {p : Body Unit} (h : Committed p) (env : SessionEnv)
    (htask : c.task .session = p) (hclosed : c.state.state = .closed) :
    ∃ moves c', Machine.run (sharedStep nets self requestTimeout) c moves = some c' ∧
      (c'.state.state ≠ .closed ∨ c'.state.published ≠ c.state.published) := by
  induction h generalizing c with
  | @now op k hop =>
    refine ⟨[.call .session env], _, run_cons_eq_some.mpr
      ⟨_, Pool.advance_eq_some.mpr ⟨op, k, htask, rfl⟩, rfl⟩, ?_⟩
    cases op with
    | putState s => exact Or.inl hop
    | publish e => exact Or.inr fun h => List.cons_ne_nil e [] (List.append_right_eq_self.mp h)
    | _ => exact absurd hop not_false
  | @later op k _ ih =>
    let next : Shared := ⟨(perform self.sessionId env op c.state).2,
      Function.update c.task .session (k (perform self.sessionId env op c.state).1)⟩
    have hstep : sharedStep nets self requestTimeout c (.call .session env) = some next :=
      Pool.advance_eq_some.mpr ⟨op, k, htask, rfl⟩
    by_cases hstays : next.state.state = .closed ∧ next.state.published = c.state.published
    · have htask' : next.task .session = k (perform self.sessionId env op c.state).1 :=
        Function.update_self Party.session _ c.task
      obtain ⟨moves, c', hrun, hescaped⟩ := ih _ htask' hstays.1
      rw [hstays.2] at hescaped
      exact ⟨.call .session env :: moves, c', run_cons_eq_some.mpr ⟨next, hstep, hrun⟩, hescaped⟩
    · exact ⟨[.call .session env], next, run_cons_eq_some.mpr ⟨next, hstep, rfl⟩,
        not_and_or.mp hstays⟩

end Runs

/-- The drain runs from beginning to end. -/
def wholeDrain : List Move :=
  [.drain, .call .drain quietEnv, .call .drain quietEnv, .call .drain quietEnv]

/-- A bind comes in after the drain. -/
def lateBind : List Move := [.turn (.pdu bindInput.frame), .call .session quietEnv, .call .session quietEnv]

/-- A drain before the bind: the session finds that it is closing. -/
theorem closed_is_never_left_by_late_bind :
    ∃ c c', Machine.run (sharedStep tenNet openSession 0) (.new 0) wholeDrain = some c ∧
      Machine.run (sharedStep tenNet openSession 0) c lateBind = some c' ∧
      c.state.state = .closed ∧ c'.state.state = .closed ∧
      c'.state.published = c.state.published := by
  refine ⟨_, _, rfl, rfl, rfl, closed_is_never_left tenNet openSession 0 0 wholeDrain lateBind _ _ rfl
    rfl ?_ rfl⟩
  -- every call of the drain finds the session at rest
  refine (meets_cons rfl).mpr ⟨trivial, (meets_cons rfl).mpr ⟨?_, (meets_cons rfl).mpr ⟨?_,
    (meets_cons rfl).mpr ⟨?_, (meets_cons rfl).mpr ⟨trivial, (meets_cons rfl).mpr ⟨trivial,
      (meets_cons rfl).mpr ⟨trivial, trivial⟩⟩⟩⟩⟩⟩⟩
  all_goals exact fun k _ => not_committed_of_idle rfl

/-- A bind that has passed its check, then the drain from beginning to end. -/
def drainBehindBind : List Move :=
  [.turn (.pdu bindInput.frame), .call .session quietEnv, .call .session quietEnv,
    .call .session quietEnv] ++ wholeDrain

/-- The rest of the bind. -/
def restOfBind : List Move :=
  [.call .session quietEnv, .call .session quietEnv, .call .session quietEnv]

/-- A bind that is past its check when the drain closes the connection binds it again. -/
theorem closed_is_left_by_bind :
    ∃ c c', Machine.run (sharedStep tenNet openSession 0) (.new 0) drainBehindBind = some c ∧
      Machine.run (sharedStep tenNet openSession 0) c restOfBind = some c' ∧
      c.state.state = .closed ∧ c'.state.state = .boundTx :=
  ⟨_, _, rfl, rfl, rfl, rfl⟩

end Smppd.Listener
