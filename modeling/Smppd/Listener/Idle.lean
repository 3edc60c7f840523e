/-
  The TIMERS of a session loop (`SmppSession::run_loop`).

  Each turn of the loop arms two timers afresh: the idle timeout around the read, and the second after
  which pending requests are looked through.  Whichever event comes first ends the turn and drops BOTH
  timers.  `Loop` is this over discrete time: time passes as long as it does not pass the deadline of an
  armed timer, and events are handled in no time.

  The idle timer measures the time since the last TURN, not since the last PDU: a housekeeping tick or a
  response from the pipeline that comes after the last PDU puts it off.  With an idle timeout of more
  than a second the tick always comes first (`Deferred.unnoticed`, `minute_of_silence_unnoticed`);
  `idle_sessions_noticed` says that without such a turn an idle session is noticed in time.
-/
import Smppd.Lib.Machine
import Smppd.Listener.Dispatch

set_option linter.unusedVariables false

namespace Smppd.Listener

open Smppd.Store Smppd.Gateway Smppd.Bootstrap Smppd.Filter Prog Machine

/-! ## The loop in time -/

/-- The state of a loop: the connection, the time, when the two timers are due, and for the
    specification when the last PDU came in (or the loop started) and how much had been written then. -/
structure Loop where
  conn : Conn
  now : Instant
  idleDue : Instant
  tickDue : Instant
  lastPdu : Instant
  mark : Nat

/-- The second after which pending requests are looked through. -/
def tick : Duration := fromSecs 1

/-- The loop at its start. -/
def Loop.start (idleTimeout : Duration) (conn : Conn) (now : Instant) : Loop :=
  ⟨conn, now, now + idleTimeout, now + tick, now, conn.written.length⟩

/-- What can happen in a loop; the surroundings of an event are met as it is handled. -/
inductive Beat where
  | wait (d : Duration)
  | event (event : Turn) (env : Nat → SessionEnv)

/-- The surroundings, as they are at a time. -/
def timed (now : Instant) (env : Nat → SessionEnv) : Nat → SessionEnv :=
  fun i => { env i with clock := { (env i).clock with now := now } }

/-- The event is one that can happen: the idle timeout and the tick when they are due, anything else at
    any time. -/
def Loop.due (s : Loop) : Turn → Bool
  | .idle => s.idleDue ≤ s.now
  | .housekeeping => s.tickDue ≤ s.now
  | _ => true

section System

variable {Ip Net : Type} (nets : IpNets Ip Net) (self : SmppSession Ip Net)
  (idleTimeout requestTimeout : Duration)

/-- What a turn leaves of a connection that nobody else holds. -/
def turned (event : Turn) (env : Nat → SessionEnv) (c : Conn) : Conn :=
  ((turn nets self requestTimeout event).exec (perform self.sessionId) env c).2.1

/-- The loop after an event: both timers are armed again. -/
def Loop.after (s : Loop) (event : Turn) (env : Nat → SessionEnv) : Loop :=
  let conn := turned nets self requestTimeout event (timed s.now env) s.conn
  let rearmed := { s with conn := conn, idleDue := s.now + idleTimeout, tickDue := s.now + tick }
  match event with
  | .pdu _ => { rearmed with lastPdu := s.now, mark := conn.written.length }
  | _ => rearmed

/-- One step of the loop, as long as the session is in it. -/
def beat (s : Loop) : Beat → Option Loop
  | .wait d =>
    if s.conn.left = false ∧ s.now + d ≤ s.idleDue ∧ s.now + d ≤ s.tickDue then
      some { s with now := s.now + d }
    else none
  | .event event env =>
    if s.conn.left = false ∧ s.due event then
      some (s.after nets self idleTimeout requestTimeout event env)
    else none

end System

/-! ## Being noticed -/

/-- An `enquire_link` has been written since the last PDU. -/
def Loop.enquired (s : Loop) : Bool :=
  (s.conn.written.drop s.mark).any fun w => w.1.command = .enquireLink

/-- The session has been seen to: it has left the loop, or it is bound and has been enquired of. -/
def Loop.Seen (s : Loop) : Prop :=
  s.conn.left = true ∨ s.conn.state.isBound = true ∧ s.enquired = true

/-- A session from which nothing has come for longer than the idle timeout has been seen to. -/
def Loop.Noticed (idleTimeout : Duration) (s : Loop) : Prop :=
  s.lastPdu + idleTimeout < s.now → s.Seen

/-- The step does not put the idle timer off: a response or a tick comes at the very moment of the last
    PDU, or when the session has been seen to. -/
def Undeferred (s : Loop) : Beat → Prop
  | .event (.response _) _ => s.now = s.lastPdu ∨ s.Seen
  | .event .housekeeping _ => s.now = s.lastPdu ∨ s.Seen
  | _ => True

/-- What holds all along: the session has been seen to, or its idle timer is due in time and not
    passed. -/
structure Timely (idleTimeout : Duration) (s : Loop) : Prop where
  mark : s.conn.left = false → s.mark ≤ s.conn.written.length
  seen : s.Seen ∨ s.now ≤ s.idleDue ∧ s.idleDue ≤ s.lastPdu + idleTimeout

theorem Timely.noticed {idleTimeout : Duration} {s : Loop} (h : Timely idleTimeout s) :
    s.Noticed idleTimeout := by
  intro hlate
  rcases h.seen with hseen | ⟨hnow, hdue⟩
  · exact hseen
  · exact absurd hlate (Int.not_lt.mpr (Int.le_trans hnow hdue))

theorem timely_start (idleTimeout : Duration) (conn : Conn) (now : Instant) :
    Timely idleTimeout (.start idleTimeout conn now) := by
  exact ⟨fun _ => Nat.le_refl _,
    Or.inr ⟨Int.le_add_of_nonneg_right (Int.natCast_nonneg _), Int.le_refl _⟩⟩

/-! ## What each event does -/

section Events

variable {Ip Net : Type} (nets : IpNets Ip Net) (self : SmppSession Ip Net)
  (requestTimeout : Duration) (env : Nat → SessionEnv) (c : Conn)

/-- A peer that hangs up ends the loop. -/
theorem turned_hangup : (turned nets self requestTimeout .hangup env c).left = true := by
  unfold turned turn
  simp only [request_bind, exec_call, perform]
  cases c.closing with
  | true => rfl
  | false => rfl

/-- A response is written, if it can be, and nothing else changes; a closing session leaves. -/
theorem turned_response (response : ResponseEnvelope) :
    (turned nets self requestTimeout (.response response) env c).left = true ∨
      turned nets self requestTimeout (.response response) env c =
        wrote (env 1).sendError
          (.withStatus .submitSmResp response.sequenceNumber (.fromU32 response.commandStatus))
          (.submitSmResp response.messageId) c := by
  unfold turned turn
  simp only [request_bind, exec_call, perform]
  cases c.closing with
  | true => exact Or.inl rfl
  | false =>
    refine Or.inr ?_
    unfold handleAsyncResponse
    simp only [Prog.exec_bind, sendPdu_exec]
    rfl

/-- Housekeeping looks through the pending requests, and nothing else changes; a closing session
    leaves. -/
theorem turned_housekeeping :
    c.closing = true ∧ (turned nets self requestTimeout .housekeeping env c).left = true ∨
      c.closing = false ∧
        ∃ pending, turned nets self requestTimeout .housekeeping env c = { c with pending := pending } := by
  cases hclosing : c.closing with
  | true =>
    refine Or.inl ⟨rfl, ?_⟩
    unfold turned turn
    simp only [request_bind, exec_call, perform, hclosing]
    rfl
  | false =>
    refine Or.inr ⟨rfl, (perform self.sessionId (env 1) (.dropPending requestTimeout) c).2.pending, ?_⟩
    rw [← hclosing]
    unfold turned turn
    simp only [request_bind, exec_call, perform]
    split
    · rename_i h
      rw [hclosing] at h
      cases h
    · rfl

/-- An `enquire_link` is written, or could not be. -/
theorem sendEnquireLink_exec :
    let r := sendEnquireLink.exec (perform self.sessionId) env c
    (r.1 = .ok () ∧ r.2.1.state = c.state ∧
      r.2.1.written = c.written ++ [(.new .enquireLink c.sequence, .enquireLink)]) ∨
    ∃ e, r.1 = .error e := by
  unfold sendEnquireLink
  simp only [request_bind, exec_call, perform, Prog.exec_bind, sendPdu_exec]
  cases (env (0 + 1 + 1)).sendError with
  | none => exact Or.inl ⟨rfl, rfl, rfl⟩
  | some e => exact Or.inr ⟨_, rfl⟩

/-- At the idle timeout a session that is not bound leaves, and one that is bound writes an
    `enquire_link` or leaves. -/
theorem turned_idle :
    (turned nets self requestTimeout .idle env c).left = true ∨
      c.state.isBound = true ∧
        (turned nets self requestTimeout .idle env c).state = c.state ∧
        (turned nets self requestTimeout .idle env c).written =
          c.written ++ [(.new .enquireLink c.sequence, .enquireLink)] := by
  unfold turned turn
  simp only [request_bind, exec_call, perform]
  cases c.closing with
  | true => exact Or.inl rfl
  | false =>
    simp only [exec_call, perform]
    by_cases hbound : c.state.isBound = true
    · simp only [hbound, if_true, Prog.exec_bind]
      rcases sendEnquireLink_exec self (fun i => env (i + 1 + 1)) c with
        ⟨hok, hstate, hwritten⟩ | ⟨e, herror⟩
      · rw [hok]
        exact Or.inr ⟨trivial, hstate, hwritten⟩
      · rw [herror]
        exact Or.inl rfl
    · refine Or.inl ?_
      simp only [hbound, Bool.false_eq_true, if_false]
      rfl

/-! ## Every step is in time -/

variable {nets self requestTimeout} {idleTimeout : Duration} {s s' : Loop}

/-- A session that has left is in time. -/
theorem Timely.of_left (h : s.conn.left = true) : Timely idleTimeout s := by
  refine ⟨fun hin => ?_, Or.inl (Or.inl h)⟩
  rw [h] at hin
  cases hin

/-- A write adds to what has been written, or not. -/
theorem wrote_written (error : Option String) (header : Header) (pdu : Pdu) (c : Conn) :
    ∃ more, (wrote error header pdu c).written = c.written ++ more := by
  cases error with
  | none => exact ⟨[(header, pdu)], rfl⟩
  | some e => exact ⟨[], (List.append_nil _).symm⟩

/-- What has been written since the last PDU stays, when more is written. -/
theorem drop_mark_append {written more : List (Header × Pdu)} {mark : Nat} (h : mark ≤ written.length) :
    (written ++ more).drop mark = written.drop mark ++ more :=
  List.drop_append_of_le_length h

/-- A turn that changes neither the state nor what has been written keeps the session in time, unless it
    puts the idle timer off. -/
theorem Timely.rearm (h : Timely idleTimeout s) (hin : s.conn.left = false)
    (hok : s.now = s.lastPdu ∨ s.Seen) {conn : Conn} (hstate : conn.state = s.conn.state)
    {more : List (Header × Pdu)} (hwritten : conn.written = s.conn.written ++ more) :
    Timely idleTimeout { s with
      conn := conn, idleDue := s.now + idleTimeout, tickDue := s.now + tick } := by
  have hmark := h.mark hin
  refine ⟨fun _ => ?_, ?_⟩
  · show s.mark ≤ conn.written.length
    rw [hwritten, List.length_append]
    exact Nat.le_add_right_of_le hmark
  · -- arming the timer from now loses nothing at the moment of the last PDU, or when nothing is owed
    rcases hok with hnow | hleft | ⟨hbound, henquired⟩
    · refine Or.inr ⟨Int.le_add_of_nonneg_right (Int.natCast_nonneg _), ?_⟩
      show s.now + idleTimeout ≤ s.lastPdu + idleTimeout
      rw [hnow]
    · rw [hin] at hleft
      cases hleft
    · refine Or.inl (Or.inr ⟨?_, ?_⟩)
      · show conn.state.isBound = true
        rw [hstate]
        exact hbound
      · show ((conn.written.drop s.mark).any fun w => w.1.command = .enquireLink) = true
        rw [hwritten, drop_mark_append hmark, List.any_append, Bool.or_eq_true]
        exact Or.inl henquired

/-- A bound session that has just been enquired of is in time. -/
theorem Timely.of_enquiry {c : Conn} {header : Header} (hbound : c.state.isBound = true)
    (hstate : s'.conn.state = c.state) (hheader : header.command = .enquireLink)
    (hwritten : s'.conn.written = c.written ++ [(header, .enquireLink)])
    (hmark : s'.mark ≤ c.written.length) : Timely idleTimeout s' := by
  refine ⟨fun _ => ?_, Or.inl (Or.inr ⟨?_, ?_⟩)⟩
  · rw [hwritten, List.length_append]
    exact Nat.le_add_right_of_le hmark
  · rw [hstate]
    exact hbound
  · unfold Loop.enquired
    rw [hwritten, drop_mark_append hmark, List.any_append, Bool.or_eq_true, List.any_cons,
      Bool.or_eq_true, decide_eq_true_eq]
    exact Or.inr (Or.inl hheader)

/-- **A step that does not put the idle timer off is in time.** -/
theorem Timely.beat (h : Timely idleTimeout s) {b : Beat} (hok : Undeferred s b)
    (hstep : beat nets self idleTimeout requestTimeout s b = some s') : Timely idleTimeout s' := by
  cases b with
  | wait d =>
    obtain ⟨⟨hin, hidle, -⟩, heq⟩ := Option.ite_none_right_eq_some.mp hstep
    cases heq
    exact ⟨h.mark, h.seen.imp_right fun hdue => ⟨hidle, hdue.2⟩⟩
  | event event env =>
    obtain ⟨⟨hin, hdue⟩, heq⟩ := Option.ite_none_right_eq_some.mp hstep
    cases heq
    cases event with
    | pdu frame =>
      exact ⟨fun _ => Nat.le_refl _,
        Or.inr ⟨Int.le_add_of_nonneg_right (Int.natCast_nonneg _), Int.le_refl _⟩⟩
    | hangup => exact .of_left (turned_hangup nets self requestTimeout _ _)
    | idle =>
      rcases turned_idle nets self requestTimeout (timed s.now env) s.conn with
        hleft | ⟨hbound, hstate, hwritten⟩
      · exact .of_left hleft
      · exact .of_enquiry hbound hstate rfl hwritten (h.mark hin)
    | response response =>
      rcases turned_response nets self requestTimeout (timed s.now env) s.conn response with
        hleft | hconn
      · exact .of_left hleft
      · obtain ⟨more, hmore⟩ := wrote_written (timed s.now env 1).sendError
          (.withStatus .submitSmResp response.sequenceNumber (.fromU32 response.commandStatus))
          (.submitSmResp response.messageId) s.conn
        rw [← hconn] at hmore
        exact h.rearm hin hok (by rw [hconn, wrote_state]) hmore
    | housekeeping =>
      rcases turned_housekeeping nets self requestTimeout (timed s.now env) s.conn with
        ⟨-, hleft⟩ | ⟨-, pending, hconn⟩
      · exact .of_left hleft
      · have hwritten : (turned nets self requestTimeout .housekeeping (timed s.now env) s.conn).written =
            s.conn.written ++ [] := by rw [hconn, List.append_nil]
        exact h.rearm hin hok (by rw [hconn]) hwritten

/-- **Idle sessions are noticed** in every run in which no response and no tick puts the idle timer off:
    when more than the idle timeout has passed since the last PDU, the session has left the loop, or it is
    bound and an `enquire_link` has been written to it since. -/
theorem idle_sessions_noticed (nets : IpNets Ip Net) (self : SmppSession Ip Net)
    (idleTimeout requestTimeout : Duration) (created now : Instant) (beats : List Beat) (s : Loop)
    (hmeets : Meets (beat nets self idleTimeout requestTimeout) Undeferred
      (.start idleTimeout (.new created) now) beats)
    (hrun : run (beat nets self idleTimeout requestTimeout) (.start idleTimeout (.new created) now) beats =
      some s) : s.Noticed idleTimeout :=
  (meets_inv (fun _ _ _ htimely hok hstep => htimely.beat hok hstep)
    (timely_start idleTimeout (.new created) now) hmeets hrun).noticed

/-! ## Putting the timer off -/

/-- The idle timer of a silent session has been put off beyond the idle timeout. -/
structure Deferred (idleTimeout : Duration) (s : Loop) : Prop where
  inLoop : s.conn.left = false
  closing : s.conn.closing = false
  unseen : ¬ (s.conn.state.isBound = true ∧ s.enquired = true)
  silent : s.lastPdu < s.now
  late : s.lastPdu + idleTimeout < s.idleDue
  idleArmed : s.now ≤ s.idleDue
  tickArmed : s.now ≤ s.tickDue

/-- Time can pass up to any point before both deadlines. -/
theorem exists_wait (nets : IpNets Ip Net) (self : SmppSession Ip Net)
    (idleTimeout requestTimeout : Duration) (hin : s.conn.left = false) {till : Instant}
    (hfrom : s.now ≤ till) (hidle : till ≤ s.idleDue) (htick : till ≤ s.tickDue) :
    ∃ d, beat nets self idleTimeout requestTimeout s (.wait d) = some { s with now := till } := by
  obtain ⟨d, rfl⟩ := Int.le.dest hfrom
  exact ⟨d, if_pos ⟨hin, hidle, htick⟩⟩

/-- A tick puts the timer of a silent session off. -/
theorem deferred_of_tick (hin : s.conn.left = false) (hclosing : s.conn.closing = false)
    (hunseen : ¬ (s.conn.state.isBound = true ∧ s.enquired = true)) (hsilent : s.lastPdu < s.now)
    (env : Nat → SessionEnv) :
    Deferred idleTimeout (s.after nets self idleTimeout requestTimeout .housekeeping env) := by
  rcases turned_housekeeping nets self requestTimeout (timed s.now env) s.conn with
    ⟨hclosing', -⟩ | ⟨-, pending, hconn⟩
  · rw [hclosing] at hclosing'
    cases hclosing'
  · have hafter : s.after nets self idleTimeout requestTimeout .housekeeping env = { s with
        conn := { s.conn with pending := pending }
        idleDue := s.now + idleTimeout
        tickDue := s.now + tick } := by
      unfold Loop.after
      rw [hconn]
    rw [hafter]
    exact ⟨hin, hclosing, hunseen, hsilent, Int.add_lt_add_right hsilent _,
      Int.le_add_of_nonneg_right (Int.natCast_nonneg _),
      Int.le_add_of_nonneg_right (Int.natCast_nonneg _)⟩

/-- When the next tick comes after the idle timeout, so does the next event, if time just passes. -/
theorem Deferred.unnoticed_now (nets : IpNets Ip Net) (self : SmppSession Ip Net)
    (requestTimeout : Duration) (h : Deferred idleTimeout s) (hlast : s.lastPdu + idleTimeout < s.tickDue) :
    ∃ beats s', run (beat nets self idleTimeout requestTimeout) s beats = some s' ∧
      ¬ s'.Noticed idleTimeout := by
  obtain ⟨d, hd⟩ := exists_wait nets self idleTimeout requestTimeout h.inLoop
    (le_min h.idleArmed h.tickArmed) (min_le_left _ _) (min_le_right _ _)
  refine ⟨[.wait d], _, run_cons_eq_some.mpr ⟨_, hd, rfl⟩, fun hnoticed => ?_⟩
  rcases hnoticed (lt_min h.late hlast) with hleft | hseen
  · rw [h.inLoop] at hleft
    cases hleft
  · exact h.unseen hseen

/-- **A timer that has been put off once is put off for good**: a silent session then has a run in which it
    goes unnoticed.  The induction is on the time left between the next tick and the idle timeout. -/
theorem Deferred.unnoticed (nets : IpNets Ip Net) (self : SmppSession Ip Net) (requestTimeout : Duration)
    (env : Nat → SessionEnv) (h : Deferred idleTimeout s) :
    ∃ beats s', run (beat nets self idleTimeout requestTimeout) s beats = some s' ∧
      ¬ s'.Noticed idleTimeout := by
  induction hn : (s.lastPdu + idleTimeout + 1 - s.tickDue : Int).toNat using Nat.strong_induction_on
    generalizing s with
  | _ n ih =>
    by_cases hlast : s.lastPdu + idleTimeout < s.tickDue
    · exact h.unnoticed_now nets self requestTimeout hlast
    · -- the tick comes first, and arms the idle timer for later
      have hdue : s.tickDue ≤ s.idleDue := le_trans (not_lt.mp hlast) (le_of_lt h.late)
      obtain ⟨d, hd⟩ := exists_wait nets self idleTimeout requestTimeout h.inLoop h.tickArmed hdue
        (Int.le_refl _)
      let ticked : Loop := { s with now := s.tickDue }
      have hsilent : ticked.lastPdu < ticked.now := lt_of_lt_of_le h.silent h.tickArmed
      have hnext : Deferred idleTimeout (ticked.after nets self idleTimeout requestTimeout .housekeeping
          env) := deferred_of_tick (s := ticked) h.inLoop h.closing h.unseen hsilent env
      have hshrinks : ∀ x y : Int, y ≤ x →
          (x + 1 - (y + 1000000000)).toNat < (x + 1 - y).toNat := by
        intro x y hxy
        omega
      have hless : (s.lastPdu + idleTimeout + 1 - (s.tickDue + tick) : Int).toNat < n := by
        rw [← hn]
        exact hshrinks _ _ (not_lt.mp hlast)
      obtain ⟨beats, s', hrun, hunnoticed⟩ := ih _ hless hnext rfl
      refine ⟨.wait d :: .event .housekeeping env :: beats, s', ?_, hunnoticed⟩
      refine run_cons_eq_some.mpr ⟨ticked, hd, run_cons_eq_some.mpr ⟨_, ?_, hrun⟩⟩
      exact if_pos ⟨h.inLoop, decide_eq_true (Int.le_refl _)⟩

end Events

/-- Half a second of silence, which is all this session is given, and the idle timeout. -/
def silentHalfSecond : List Beat :=
  [.wait 500000000, .event .idle fun _ => quietEnv]

/-- A session that is given less than a second is noticed. -/
theorem half_second_of_silence_noticed :
    ∃ s, run (beat tenNet openSession 500000000 (fromSecs 30)) (.start 500000000 (.new 0) 0)
        silentHalfSecond = some s ∧ s.Noticed 500000000 := by
  refine ⟨_, rfl, idle_sessions_noticed tenNet openSession 500000000 (fromSecs 30) 0 0 silentHalfSecond _
    ?_ rfl⟩
  exact (meets_cons rfl).mpr ⟨trivial, (meets_cons rfl).mpr ⟨trivial, trivial⟩⟩

/-- A second passes, and housekeeping is done. -/
def silentSecond : List Beat := [.wait tick, .event .housekeeping fun _ => quietEnv]

/-- Nothing comes from the peer for 61 seconds. -/
def silentMinute : List Beat := (List.replicate 61 silentSecond).flatten

/-- A peer that never says a word is still there after the minute it is given, unbound. -/
theorem minute_of_silence_unnoticed :
    ∃ s, run (beat tenNet openSession (fromSecs 60) (fromSecs 30))
        (.start (fromSecs 60) (.new 0) 0) silentMinute = some s ∧
      ¬ s.Noticed (fromSecs 60) := by
  refine ⟨_, rfl, fun hnoticed => ?_⟩
  rcases hnoticed (by decide) with hleft | ⟨hbound, -⟩
  · cases hleft
  · cases hbound

end Smppd.Listener
