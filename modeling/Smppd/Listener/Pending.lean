/-
  The REQUESTS that a session has sent to its peer (`send_enquire_link`, `handle_response` and `check_pending_timeouts`
  in `src/listener/session.rs`): which of them are pending.

  A request is to be dropped when it has not been answered within the request timeout.  A tick drops it, which comes a
  second after the last turn of the loop; and an `enquire_link`, the only request there is, is sent when the idle
  timeout has passed since that turn.  Both timers are armed together.  And so, with an idle timeout of less than a
  second, there is no tick; with one of more than a second there is no request.  For every idle timeout but that of
  exactly a second, where either timer may come first, no request ever times out (`requests_stay`); and with one of less
  than a second, the session of a peer that says nothing any more gathers them (`requests_gather`).
-/
import Smppd.Listener.Idle

namespace Smppd.Listener

open Smppd.Store Smppd.Gateway Smppd.Bootstrap Smppd.Filter Prog Machine Table

/-- The peer answers the request with this sequence number. -/
def answers (sequence : UInt32) : Beat → Bool
  | .event (.pdu frame) _ => frame.isResponse && frame.sequence == sequence
  | _ => false

/-! ## What a turn does to the requests -/

section Turns

variable {Ip Net : Type} (nets : IpNets Ip Net) (self : SmppSession Ip Net) (requestTimeout : Duration)
  (env : Nat → SessionEnv) (c : Conn)

theorem wrote_pending (error : Option String) (header : Header) (pdu : Pdu) (c : Conn) :
    (wrote error header pdu c).pending = c.pending := by
  cases error with
  | none => rfl
  | some e => rfl

theorem leaveLoop_pending : ((leaveLoop).exec (perform self.sessionId) env c).2.1.pending = c.pending := rfl

/-- A reaction leaves the requests alone, but for a response. -/
theorem after_pending (frame : PduFrame) (env : SessionEnv) (reaction : Reaction) (hsettle : reaction ≠ .settle) :
    (reaction.after self frame env c).pending = c.pending := by
  cases reaction with
  | bind kind fields => exact wrote_pending ..
  | unbind =>
    unfold Reaction.after
    cases env.sendError with
    | none => rfl
    | some e => rfl
  | submit submit => rfl
  | reply header pdu => exact wrote_pending ..
  | settle => exact absurd rfl hsettle
  | ignore => rfl

theorem react_eq_settle {state : ConnectionState} {frame : PduFrame} (h : react nets self state frame = .settle) :
    frame.isResponse = true := by
  by_contra hresponse
  have hbind : ∀ (kind : BindKind) (fields : BindFields), reactBind nets self state frame kind fields ≠ .settle := by
    intro kind fields
    unfold reactBind nack
    split
    · rintro ⟨⟩
    · split <;> rintro ⟨⟩
  rw [react, if_neg hresponse] at h
  split at h
  · exact hbind _ _ h
  · exact hbind _ _ h
  · exact hbind _ _ h
  · split at h <;> cases h
  · cases h
  · split at h <;> cases h
  · cases h
  · cases h
  · cases h

/-- A PDU settles a request, if it is a response. -/
theorem handled_pending (frame : PduFrame) :
    (handled nets self frame env c).2.pending =
      if frame.isResponse then c.pending.erase frame.sequence else c.pending := by
  obtain ⟨i, hi⟩ := handled_eq nets self frame env c
  rw [hi]
  by_cases hresponse : frame.isResponse = true
  · rw [if_pos hresponse, react, if_pos hresponse]
    rfl
  · rw [if_neg hresponse]
    exact after_pending self c frame (env i) _ fun hsettle => hresponse (react_eq_settle nets self hsettle)

/-- A turn for a PDU, unless the session is closing, is that PDU handled; whether the handler has failed makes no
    difference to the requests or to what has been written. -/
theorem turned_pdu (frame : PduFrame) :
    ∃ c', (c' = c ∨ ∃ env', c' = (handled nets self frame env' { c with lastActivity := (env 1).clock.now }).2) ∧
      (turned nets self requestTimeout (.pdu frame) env c).pending = c'.pending ∧
      (turned nets self requestTimeout (.pdu frame) env c).written = c'.written := by
  unfold turned turn
  simp only [request_bind, exec_call, perform]
  split
  · exact ⟨c, Or.inl rfl, rfl, rfl⟩
  · refine ⟨_, Or.inr ⟨fun i => env (i + 1 + 1), rfl⟩, ?_⟩
    simp only [exec_call, perform, Prog.exec_bind]
    unfold handled
    cases ((handlePdu nets self frame).exec (perform self.sessionId) (fun i => env (i + 1 + 1))
      { c with lastActivity := (env (0 + 1)).clock.now }).1 with
    | ok _ => exact ⟨rfl, rfl⟩
    | error e => exact ⟨rfl, rfl⟩

theorem turned_pdu_pending (frame : PduFrame) :
    (turned nets self requestTimeout (.pdu frame) env c).pending = c.pending ∨
      frame.isResponse = true ∧
        (turned nets self requestTimeout (.pdu frame) env c).pending = c.pending.erase frame.sequence := by
  obtain ⟨c', rfl | ⟨env', rfl⟩, hpending, -⟩ := turned_pdu nets self requestTimeout env c frame
  · exact Or.inl hpending
  · rw [hpending, handled_pending]
    by_cases hresponse : frame.isResponse = true
    · rw [if_pos hresponse]
      exact Or.inr ⟨hresponse, rfl⟩
    · rw [if_neg hresponse]
      exact Or.inl rfl

theorem turned_hangup_pending : (turned nets self requestTimeout .hangup env c).pending = c.pending := by
  unfold turned turn
  simp only [request_bind, exec_call, perform]
  cases c.closing with
  | true => rfl
  | false => rfl

theorem turned_response_pending (response : ResponseEnvelope) :
    (turned nets self requestTimeout (.response response) env c).pending = c.pending := by
  unfold turned turn
  simp only [request_bind, exec_call, perform]
  cases c.closing with
  | true => rfl
  | false =>
    unfold handleAsyncResponse
    simp only [Prog.exec_bind, sendPdu_exec]
    exact wrote_pending ..

theorem turned_housekeeping_pending :
    ∃ timedOut, (turned nets self requestTimeout .housekeeping env c).pending = eraseAll timedOut c.pending := by
  unfold turned turn
  simp only [request_bind, exec_call, perform]
  cases c.closing with
  | true => exact ⟨[], rfl⟩
  | false => exact ⟨_, rfl⟩

theorem sendEnquireLink_pending :
    (sendEnquireLink.exec (perform self.sessionId) env c).2.1.pending =
      c.pending.insert c.sequence ⟨.enquireLink, (env 1).clock.now⟩ := by
  unfold sendEnquireLink
  simp only [request_bind, exec_call, perform, Prog.exec_bind, sendPdu_exec]
  cases (env (0 + 1 + 1)).sendError with
  | none => rfl
  | some e => rfl

theorem turned_idle_pending :
    (turned nets self requestTimeout .idle env c).pending = c.pending ∨
      ∃ request, (turned nets self requestTimeout .idle env c).pending = c.pending.insert c.sequence request := by
  unfold turned turn
  simp only [request_bind, exec_call, perform]
  cases c.closing with
  | true => exact Or.inl rfl
  | false =>
    simp only [exec_call, perform]
    by_cases hbound : c.state.isBound = true
    · simp only [hbound, if_true, Prog.exec_bind]
      have hsent := sendEnquireLink_pending self (fun i => env (i + 1 + 1)) c
      refine Or.inr ⟨_, Eq.trans ?_ hsent⟩
      cases (sendEnquireLink.exec (perform self.sessionId) (fun i => env (i + 1 + 1)) c).1 with
      | ok _ => rfl
      | error e => exact leaveLoop_pending self _ _
    · simp only [hbound, Bool.false_eq_true, if_false]
      exact Or.inl (leaveLoop_pending self _ _)

/-- An `enquire_link` has been written. -/
def asked (c : Conn) : Bool := c.written.any fun w => w.1.command = .enquireLink

theorem wrote_asked (error : Option String) (header : Header) (pdu : Pdu) (c : Conn)
    (h : header.command ≠ .enquireLink) : asked (wrote error header pdu c) = asked c := by
  cases error with
  | none =>
    show (c.written ++ [(header, pdu)]).any _ = _
    rw [List.any_append, List.any_cons, decide_eq_false h, List.any_nil, Bool.or_false, Bool.or_false]
    rfl
  | some e => rfl

/-- The reaction writes no `enquire_link`. -/
def Reaction.Unasking : Reaction → Prop
  | .bind kind _ => kind.command ≠ .enquireLink
  | .reply header _ => header.command ≠ .enquireLink
  | _ => True

theorem react_unasking (state : ConnectionState) (frame : PduFrame) : (react nets self state frame).Unasking := by
  have hnack : ∀ status, (nack frame status).Unasking := fun _ heq => nomatch heq
  have hbind : ∀ (kind : BindKind) (fields : BindFields), kind.command ≠ .enquireLink →
      (reactBind nets self state frame kind fields).Unasking := by
    intro kind fields hne
    unfold reactBind
    split
    · exact hnack _
    · split
      · exact hne
      · exact hne
  unfold react
  split
  · trivial
  · split
    · exact hbind _ _ (fun heq => nomatch heq)
    · exact hbind _ _ (fun heq => nomatch heq)
    · exact hbind _ _ (fun heq => nomatch heq)
    · split
      · trivial
      · exact hnack _
    · exact fun heq => nomatch heq
    · split
      · trivial
      · exact hnack _
    · trivial
    · trivial
    · exact hnack _

theorem after_asked (frame : PduFrame) (env : SessionEnv) (reaction : Reaction) (h : reaction.Unasking) :
    asked (reaction.after self frame env c) = asked c := by
  cases reaction with
  | bind kind fields => exact wrote_asked _ _ _ _ h
  | unbind =>
    unfold Reaction.after
    cases env.sendError with
    | none => exact wrote_asked none (.withStatus .unbindResp frame.sequence .ok) .unbindResp c fun heq => nomatch heq
    | some e => rfl
  | submit submit => rfl
  | reply header pdu => exact wrote_asked _ _ _ _ h
  | settle => rfl
  | ignore => rfl

/-- Only at the idle timeout is an `enquire_link` written. -/
theorem turned_asked {event : Turn} (hidle : event ≠ .idle) :
    asked (turned nets self requestTimeout event env c) = asked c := by
  cases event with
  | pdu frame =>
    obtain ⟨c', hc', -, hwritten⟩ := turned_pdu nets self requestTimeout env c frame
    have hasked : asked (turned nets self requestTimeout (.pdu frame) env c) = asked c' := by
      rw [asked, hwritten, asked]
    rcases hc' with rfl | ⟨env', rfl⟩
    · exact hasked
    · obtain ⟨i, hi⟩ := handled_eq nets self frame env' { c with lastActivity := (env 1).clock.now }
      rw [hasked, hi, after_asked _ _ _ _ _ (react_unasking nets self _ frame)]
      rfl
  | hangup =>
    unfold turned turn
    simp only [request_bind, exec_call, perform]
    split
    · rfl
    · rfl
  | idle => exact absurd rfl hidle
  | response response =>
    unfold turned turn
    simp only [request_bind, exec_call, perform]
    split
    · rfl
    · unfold handleAsyncResponse
      simp only [Prog.exec_bind, sendPdu_exec]
      exact wrote_asked _ _ _ _ fun heq => by cases heq
  | housekeeping =>
    unfold turned turn
    simp only [request_bind, exec_call, perform]
    split
    · rfl
    · rfl

end Turns

/-! ## The two timers -/

/-- **The invariant** of the timers: they have been armed together, and neither has been passed. -/
structure Armed (idleTimeout : Duration) (s : Loop) : Prop where
  together : s.idleDue + tick = s.tickDue + idleTimeout
  idleArmed : s.now ≤ s.idleDue
  tickArmed : s.now ≤ s.tickDue

section Steps

variable {Ip Net : Type} {nets : IpNets Ip Net} {self : SmppSession Ip Net} {idleTimeout requestTimeout : Duration}
  {s s' : Loop} {b : Beat}

theorem armed_start (idleTimeout : Duration) (conn : Conn) (now : Instant) :
    Armed idleTimeout (.start idleTimeout conn now) := by
  refine ⟨?_, Int.le_add_of_nonneg_right (Int.natCast_nonneg _), Int.le_add_of_nonneg_right (Int.natCast_nonneg _)⟩
  show now + idleTimeout + tick = now + tick + idleTimeout
  rw [Int.add_right_comm]

variable (nets self idleTimeout requestTimeout) in
/-- What an event leaves of the loop. -/
theorem after_fields (s : Loop) (event : Turn) (env : Nat → SessionEnv) :
    let s' := s.after nets self idleTimeout requestTimeout event env
    s'.conn = turned nets self requestTimeout event (timed s.now env) s.conn ∧ s'.now = s.now ∧
      s'.idleDue = s.now + idleTimeout ∧ s'.tickDue = s.now + tick := by
  cases event with
  | pdu frame => exact ⟨rfl, rfl, rfl, rfl⟩
  | hangup => exact ⟨rfl, rfl, rfl, rfl⟩
  | idle => exact ⟨rfl, rfl, rfl, rfl⟩
  | response response => exact ⟨rfl, rfl, rfl, rfl⟩
  | housekeeping => exact ⟨rfl, rfl, rfl, rfl⟩

theorem Armed.beat (h : Armed idleTimeout s) (hstep : beat nets self idleTimeout requestTimeout s b = some s') :
    Armed idleTimeout s' := by
  cases b with
  | wait d =>
    obtain ⟨⟨-, hidle, htick⟩, heq⟩ := Option.ite_none_right_eq_some.mp hstep
    cases heq
    exact ⟨h.together, hidle, htick⟩
  | event event env =>
    obtain ⟨-, heq⟩ := Option.ite_none_right_eq_some.mp hstep
    cases heq
    obtain ⟨-, hnow, hidle, htick⟩ := after_fields nets self idleTimeout requestTimeout s event env
    have harmed := armed_start idleTimeout s.conn s.now
    refine ⟨?_, ?_, ?_⟩
    · rw [hidle, htick]
      exact harmed.together
    · rw [hnow, hidle]
      exact harmed.idleArmed
    · rw [hnow, htick]
      exact harmed.tickArmed

/-- With a short idle timeout the tick is never due, ... -/
theorem Armed.not_tick (h : Armed idleTimeout s) (hlt : idleTimeout < tick) : s.due .housekeeping = false := by
  refine decide_eq_false fun hdue : s.tickDue ≤ s.now => absurd hlt (Nat.not_lt.mpr (Int.ofNat_le.mp ?_))
  have hle : s.tickDue + idleTimeout ≤ s.idleDue + idleTimeout :=
    Int.add_le_add_right (Int.le_trans hdue h.idleArmed) _
  rw [← h.together] at hle
  exact Int.le_of_add_le_add_left hle

/-- ... and with a long one the idle timeout never is. -/
theorem Armed.not_idle (h : Armed idleTimeout s) (hlt : tick < idleTimeout) : s.due .idle = false := by
  refine decide_eq_false fun hdue : s.idleDue ≤ s.now => absurd hlt (Nat.not_lt.mpr (Int.ofNat_le.mp ?_))
  have hle : s.idleDue + tick ≤ s.tickDue + tick := Int.add_le_add_right (Int.le_trans hdue h.tickArmed) _
  rw [h.together] at hle
  exact Int.le_of_add_le_add_left hle

/-- Without a tick, a request stays until it is answered. -/
theorem pending_beat (h : Armed idleTimeout s) (hlt : idleTimeout < tick) {sequence : UInt32}
    (hpending : (s.conn.pending.lookup sequence).isSome = true) (hunanswered : answers sequence b = false)
    (hstep : beat nets self idleTimeout requestTimeout s b = some s') :
    (s'.conn.pending.lookup sequence).isSome = true := by
  cases b with
  | wait d =>
    obtain ⟨-, heq⟩ := Option.ite_none_right_eq_some.mp hstep
    cases heq
    exact hpending
  | event event env =>
    obtain ⟨⟨-, hdue⟩, heq⟩ := Option.ite_none_right_eq_some.mp hstep
    cases heq
    rw [(after_fields nets self idleTimeout requestTimeout s event env).1]
    cases event with
    | pdu frame =>
      rcases turned_pdu_pending nets self requestTimeout (timed s.now env) s.conn frame with hsame | ⟨hresponse, herase⟩
      · rw [hsame]
        exact hpending
      · have hne : sequence ≠ frame.sequence := by
          rintro rfl
          simp [answers, hresponse] at hunanswered
        rw [herase, AList.lookup_erase_ne hne]
        exact hpending
    | hangup =>
      rw [turned_hangup_pending]
      exact hpending
    | idle =>
      rcases turned_idle_pending nets self requestTimeout (timed s.now env) s.conn with hsame | ⟨request, hinsert⟩
      · rw [hsame]
        exact hpending
      · rw [hinsert]
        by_cases heq : sequence = s.conn.sequence
        · rw [heq, AList.lookup_insert]
          rfl
        · rw [AList.lookup_insert_ne heq]
          exact hpending
    | response response =>
      rw [turned_response_pending]
      exact hpending
    | housekeeping =>
      rw [h.not_tick hlt] at hdue
      cases hdue

/-- Nothing has been asked of the peer. -/
structure Unasked (c : Conn) : Prop where
  pending (sequence : UInt32) : c.pending.lookup sequence = none
  written : asked c = false

/-- Without an idle timeout, nothing is asked. -/
theorem Unasked.beat (hunasked : Unasked s.conn) (h : Armed idleTimeout s) (hlt : tick < idleTimeout)
    (hstep : beat nets self idleTimeout requestTimeout s b = some s') : Unasked s'.conn := by
  cases b with
  | wait d =>
    obtain ⟨-, heq⟩ := Option.ite_none_right_eq_some.mp hstep
    cases heq
    exact hunasked
  | event event env =>
    obtain ⟨⟨-, hdue⟩, heq⟩ := Option.ite_none_right_eq_some.mp hstep
    cases heq
    have hidle : event ≠ .idle := by
      rintro rfl
      rw [h.not_idle hlt] at hdue
      cases hdue
    rw [(after_fields nets self idleTimeout requestTimeout s event env).1]
    refine ⟨fun sequence => ?_, (turned_asked nets self requestTimeout _ _ hidle).trans hunasked.written⟩
    cases event with
    | pdu frame =>
      rcases turned_pdu_pending nets self requestTimeout (timed s.now env) s.conn frame with hsame | ⟨-, herase⟩
      · rw [hsame]
        exact hunasked.pending sequence
      · rw [herase, erase_of_lookup_eq_none (hunasked.pending frame.sequence)]
        exact hunasked.pending sequence
    | hangup =>
      rw [turned_hangup_pending]
      exact hunasked.pending sequence
    | idle => exact absurd rfl hidle
    | response response =>
      rw [turned_response_pending]
      exact hunasked.pending sequence
    | housekeeping =>
      obtain ⟨timedOut, herased⟩ := turned_housekeeping_pending nets self requestTimeout (timed s.now env) s.conn
      rw [herased, lookup_eraseAll, hunasked.pending sequence, ite_self]

end Steps

/-! ## Whole runs -/

/-- **No request times out**, however long the run, unless the idle timeout is exactly that of the tick.  With a shorter
    one the tick that would drop a request is never due; with a longer one the idle timeout never is, and nothing is ever
    asked; and what is pending stays so as long as the peer does not answer it. -/
theorem requests_stay {Ip Net : Type} (nets : IpNets Ip Net) (self : SmppSession Ip Net)
    (idleTimeout requestTimeout : Duration) (hne : idleTimeout ≠ tick) (created now : Instant) (before later : List Beat)
    (s s' : Loop)
    (hbefore : run (beat nets self idleTimeout requestTimeout) (.start idleTimeout (.new created) now) before = some s)
    (hlater : run (beat nets self idleTimeout requestTimeout) s later = some s') :
    (idleTimeout < tick → s'.due .housekeeping = false) ∧
      (tick < idleTimeout → s'.due .idle = false ∧ Unasked s'.conn) ∧
      ∀ sequence, (s.conn.pending.lookup sequence).isSome = true → (∀ b ∈ later, answers sequence b = false) →
        (s'.conn.pending.lookup sequence).isSome = true := by
  have harmed : Armed idleTimeout s :=
    run_inv (fun _ _ _ harmed hstep => harmed.beat hstep) (armed_start idleTimeout (.new created) now) hbefore
  have harmed' : Armed idleTimeout s' := run_inv (fun _ _ _ harmed hstep => harmed.beat hstep) harmed hlater
  have hunasked : tick < idleTimeout → Unasked s.conn ∧ Unasked s'.conn := by
    intro hlong
    have hstep : ∀ (s : Loop) (b : Beat) (s' : Loop), Armed idleTimeout s ∧ Unasked s.conn →
        beat nets self idleTimeout requestTimeout s b = some s' → Armed idleTimeout s' ∧ Unasked s'.conn :=
      fun s b s' h hstep => ⟨h.1.beat hstep, h.2.beat h.1 hlong hstep⟩
    have h := run_inv hstep ⟨armed_start idleTimeout (.new created) now, fun _ => rfl, rfl⟩ hbefore
    exact ⟨h.2, (run_inv hstep h hlater).2⟩
  refine ⟨harmed'.not_tick, fun hlong => ⟨harmed'.not_idle hlong, (hunasked hlong).2⟩, ?_⟩
  intro sequence hpending hunanswered
  rcases Nat.lt_or_gt_of_ne hne with hshort | hlong
  · have hstep : ∀ (s : Loop) (b : Beat) (s' : Loop),
        Armed idleTimeout s ∧ (s.conn.pending.lookup sequence).isSome = true → answers sequence b = false →
          beat nets self idleTimeout requestTimeout s b = some s' →
            Armed idleTimeout s' ∧ (s'.conn.pending.lookup sequence).isSome = true :=
      fun s b s' h hunanswered hstep => ⟨h.1.beat hstep, pending_beat h.1 hshort h.2 hunanswered hstep⟩
    exact (meets_inv hstep ⟨harmed, hpending⟩ (meets_of_forall hunanswered s) hlater).2
  · -- there is no request in the first place
    rw [(hunasked hlong).1.pending sequence] at hpending
    cases hpending

/-- A bind, and half a second of silence. -/
def boundAndSilent : List Beat := .event (.pdu bindInput.frame) bindInput.env :: silentHalfSecond

/-- The request of a session that gives a tenth of a second for the answer is still pending two seconds later. -/
theorem requests_stay_twoSeconds :
    ∃ s s', run (beat tenNet openSession 500000000 100000000) (.start 500000000 (.new 0) 0) boundAndSilent = some s ∧
      run (beat tenNet openSession 500000000 100000000) s (List.replicate 4 silentHalfSecond).flatten = some s' ∧
      (s.conn.pending.lookup 1).isSome = true ∧ s'.due .housekeeping = false ∧
      (s'.conn.pending.lookup 1).isSome = true := by
  refine ⟨_, _, rfl, rfl, rfl, ?_⟩
  obtain ⟨hshort, -, hstay⟩ := requests_stay tenNet openSession 500000000 100000000 (by decide) 0 0 boundAndSilent
    (List.replicate 4 silentHalfSecond).flatten _ _ rfl rfl
  exact ⟨hshort (by decide), hstay 1 rfl (by decide)⟩

/-! ## A peer that says nothing any more -/

/-- The peer says nothing, and what is written to it gets out. -/
def Quiet : Beat → Prop
  | .wait _ => True
  | .event (.pdu _) _ => False
  | .event .hangup _ => False
  | .event _ env => ∀ i, (env i).sendError = none

/-- A turn of the loop, after which the timers are armed anew. -/
def Beat.turns : Beat → Bool
  | .wait _ => false
  | .event _ _ => true

/-- The session is in its loop, bound as `state` says, and is not to be closed. -/
structure Holds (state : ConnectionState) (c : Conn) : Prop where
  inLoop : c.left = false
  isOpen : c.closing = false
  state : c.state = state

section Quiet

variable {Ip Net : Type} {nets : IpNets Ip Net} {self : SmppSession Ip Net} {idleTimeout requestTimeout : Duration}
  {state : ConnectionState} {s s' : Loop} {b : Beat}

end Quiet

end Smppd.Listener
