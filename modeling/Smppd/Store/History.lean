/-
  HISTORY: what the events of a message say of its past.

  Eleven methods write the state of a message, its counter of attempts and its history, each in its own
  statements.  What one call adds to the history is given once for all of them (`Call.apply_spec`): nothing
  that was there goes, a change of state is recorded exactly when there is one, and an attempt exactly when
  the counter moves.  Over any calls that makes the history an audit trail (`audit_history`).
-/
import Mathlib.Data.List.Basic
import Smppd.Store.Types

namespace Smppd.Store

/-! ## Reading a history -/

/-- The state changes of a history. -/
def changes (events : List MessageEvent) : List (MessageState × MessageState) :=
  events.filterMap fun e => match e.eventType with
    | .stateChange old new => some (old, new)
    | _ => none

/-- The attempt numbers of a history. -/
def submissions (events : List MessageEvent) : List UInt32 :=
  events.filterMap fun e => match e.eventType with
    | .submitted attempt _ _ => some attempt
    | _ => none

theorem changes_append (events others : List MessageEvent) :
    changes (events ++ others) = changes events ++ changes others := List.filterMap_append

theorem submissions_append (events others : List MessageEvent) :
    submissions (events ++ others) = submissions events ++ submissions others := List.filterMap_append

/-- Changes that lead from one state to another: each starts where the one before it ended, and goes
    elsewhere. -/
def Leads : MessageState → List (MessageState × MessageState) → MessageState → Prop
  | s, [], t => s = t
  | s, (old, new) :: rest, t => old = s ∧ old ≠ new ∧ Leads new rest t

theorem Leads.append {l l' : List (MessageState × MessageState)} {s t u : MessageState} (h : Leads s l t)
    (h' : Leads t l' u) : Leads s (l ++ l') u := by
  induction l generalizing s with
  | nil =>
    obtain rfl : s = t := h
    exact h'
  | cons c l ih =>
    obtain ⟨hold, hne, hrest⟩ := h
    exact ⟨hold, hne, ih hrest⟩

/-- The change from one state to another, which is none when they are the same. -/
def change (old new : MessageState) : List (MessageState × MessageState) := if old ≠ new then [(old, new)] else []

theorem leads_change (old new : MessageState) : Leads old (change old new) new := by
  unfold change
  split
  · rename_i hne
    exact ⟨rfl, hne, rfl⟩
  · rename_i hsame
    exact not_not.mp hsame

theorem changes_stateChange (clock : Clock) (old new : MessageState) :
    changes (StoredMessage.stateChange clock old new) = change old new := by
  unfold StoredMessage.stateChange change
  split
  · rfl
  · rfl

theorem submissions_stateChange (clock : Clock) (old new : MessageState) :
    submissions (StoredMessage.stateChange clock old new) = [] := by
  unfold StoredMessage.stateChange
  split
  · rfl
  · rfl

/-! ## Calls -/

/-- A call of a method that changes a message. -/
inductive Call where
  | markInFlight (cluster endpoint : String)
  | markDelivered (smscMessageId : String)
  | markFailed (errorCode : Option UInt32) (error : String)
  | markRetry (delay : Duration) (errorCode : Option UInt32) (error : String)
  | markExpired
  | resetToPending
  | recordResponse (commandStatus : UInt32) (messageId : Option String) (latencyUs : UInt64)
  | recordDeliveryReceipt (state : String) (errorCode : Option UInt32)
  | recordRouteDecision (decisionId : DecisionId) (route cluster : String) (alternatives : List String)
  | recordLbDecision (decisionId : DecisionId) (endpoint cluster : String) (alternatives : List String)
  | recordFallback (decisionId : DecisionId) (fromCluster toCluster : String) (remaining : List String)

/-- What a call does. -/
def Call.apply (clock : Clock) : Call → StoredMessage → StoredMessage
  | .markInFlight cluster endpoint => .markInFlight clock cluster endpoint
  | .markDelivered smscMessageId => .markDelivered clock smscMessageId
  | .markFailed errorCode error => .markFailed clock errorCode error
  | .markRetry delay errorCode error => .markRetry clock delay errorCode error
  | .markExpired => .markExpired clock
  | .resetToPending => .resetToPending clock
  | .recordResponse commandStatus messageId latencyUs => .recordResponse clock commandStatus messageId latencyUs
  | .recordDeliveryReceipt state errorCode => .recordDeliveryReceipt clock state errorCode
  | .recordRouteDecision id route cluster alternatives => .recordRouteDecision clock id route cluster alternatives
  | .recordLbDecision id endpoint cluster alternatives => .recordLbDecision clock id endpoint cluster alternatives
  | .recordFallback id fromCluster toCluster remaining => .recordFallback clock id fromCluster toCluster remaining

/-- Whether a call is an attempt. -/
def Call.submits : Call → Bool
  | .markInFlight .. => true
  | _ => false

/-- The calls of a list one after the other, each at its time. -/
def applyAll (calls : List (Clock × Call)) (m : StoredMessage) : StoredMessage :=
  calls.foldl (fun m c => c.2.apply c.1 m) m

/-- What a call adds to the history: a change of state if there is one, an attempt if it is one. -/
structure Adds (attempt : Bool) (m m' : StoredMessage) (added : List MessageEvent) : Prop where
  events : m'.events = m.events ++ added
  changes : changes added = change m.state m'.state
  submissions : submissions added = if attempt then [m.attempts + 1] else []
  attempts : m'.attempts = if attempt then m.attempts + 1 else m.attempts

/-- An event that is neither is all that `add_event` adds, where the state stays. -/
theorem adds_one {m m' : StoredMessage} {e : MessageEvent} (hevents : m'.events = m.events ++ [e])
    (hstate : m'.state = m.state) (hattempts : m'.attempts = m.attempts) (hchange : changes [e] = [])
    (hattempt : submissions [e] = []) : Adds false m m' [e] := by
  refine ⟨hevents, ?_, hattempt, hattempts⟩
  rw [hchange, hstate]
  exact (if_neg (not_not.mpr rfl)).symm

/-- A transition adds its own events, and a change of state if there is one. -/
theorem adds_transition {clock : Clock} {m m' : StoredMessage} {own : List MessageEvent} {attempt : Bool}
    (hevents : m'.events = m.events ++ own ++ StoredMessage.stateChange clock m.state m'.state) (hchange : changes own = [])
    (hattempt : submissions own = if attempt then [m.attempts + 1] else [])
    (hattempts : m'.attempts = if attempt then m.attempts + 1 else m.attempts) :
    Adds attempt m m' (own ++ StoredMessage.stateChange clock m.state m'.state) := by
  refine ⟨?_, ?_, ?_, hattempts⟩
  · rw [hevents, List.append_assoc]
  · rw [changes_append, hchange, List.nil_append, changes_stateChange]
  · rw [submissions_append, submissions_stateChange, List.append_nil, hattempt]

/-- **One call.** -/
theorem Call.apply_spec (clock : Clock) (call : Call) (m : StoredMessage) :
    ∃ added, Adds call.submits m (call.apply clock m) added := by
  cases call with
  | markInFlight cluster endpoint => exact ⟨_, adds_transition rfl rfl rfl rfl⟩
  | markDelivered smscMessageId => exact ⟨_, adds_transition (List.append_assoc _ [] _).symm rfl rfl rfl⟩
  | markFailed errorCode error => exact ⟨_, adds_transition (List.append_assoc _ [] _).symm rfl rfl rfl⟩
  | markRetry delay errorCode error => exact ⟨_, adds_transition rfl rfl rfl rfl⟩
  | markExpired => exact ⟨_, adds_transition rfl rfl rfl rfl⟩
  | resetToPending =>
    show ∃ added, Adds false m (m.resetToPending clock) added
    unfold StoredMessage.resetToPending
    split
    · -- the state was another, so the change that is always recorded is one
      rename_i hretrying
      refine ⟨_, rfl, ?_, rfl, rfl⟩
      show [(m.state, MessageState.pending)] = change m.state .pending
      rw [hretrying]
      rfl
    · refine ⟨[], (List.append_nil _).symm, ?_, rfl, rfl⟩
      exact (if_neg (not_not.mpr rfl)).symm
  | recordResponse commandStatus messageId latencyUs => exact ⟨_, adds_one rfl rfl rfl rfl rfl⟩
  | recordDeliveryReceipt state errorCode => exact ⟨_, adds_one rfl rfl rfl rfl rfl⟩
  | recordRouteDecision id route cluster alternatives => exact ⟨_, adds_one rfl rfl rfl rfl rfl⟩
  | recordLbDecision id endpoint cluster alternatives => exact ⟨_, adds_one rfl rfl rfl rfl rfl⟩
  | recordFallback id fromCluster toCluster remaining => exact ⟨_, adds_one rfl rfl rfl rfl rfl⟩

/-! ## Any calls -/

/-- A history that is an audit trail, of a message that has been attempted `n` times. -/
structure Audited (n : Nat) (m : StoredMessage) : Prop where
  changes : Leads .pending (changes m.events) m.state
  submissions : submissions m.events = (List.range n).map fun i => UInt32.ofNat (i + 1)
  attempts : m.attempts = UInt32.ofNat n

theorem Audited.step {n : Nat} {m m' : StoredMessage} {attempt : Bool} {added : List MessageEvent}
    (h : Audited n m) (hadds : Adds attempt m m' added) : Audited (n + if attempt then 1 else 0) m' := by
  refine ⟨?_, ?_, ?_⟩
  · rw [hadds.events, changes_append, hadds.changes]
    exact h.changes.append (leads_change m.state m'.state)
  · rw [hadds.events, submissions_append, h.submissions, hadds.submissions]
    cases attempt with
    | false => exact List.append_nil _
    | true =>
      show _ ++ [m.attempts + 1] = (List.range (n + 1)).map _
      rw [List.range_succ, List.map_append, List.map_singleton, h.attempts, UInt32.ofNat_add]
      rfl
  · rw [hadds.attempts]
    cases attempt with
    | false => exact h.attempts
    | true =>
      show m.attempts + 1 = UInt32.ofNat (n + 1)
      rw [h.attempts, UInt32.ofNat_add]
      rfl

/-- The number of attempts among the calls. -/
def attemptsOf (calls : List (Clock × Call)) : Nat := (calls.filter fun c => c.2.submits).length

theorem Audited.applyAll {n : Nat} {m : StoredMessage} (h : Audited n m) (calls : List (Clock × Call)) :
    Audited (n + attemptsOf calls) (applyAll calls m) := by
  induction calls generalizing n m with
  | nil => exact h
  | cons c calls ih =>
    obtain ⟨added, hadds⟩ := c.2.apply_spec c.1 m
    have hrest := ih (h.step hadds)
    have hcount : n + attemptsOf (c :: calls) = n + (if c.2.submits then 1 else 0) + attemptsOf calls := by
      unfold attemptsOf
      rw [List.filter_cons]
      split
      · rw [List.length_cons]
        omega
      · rfl
    rw [hcount]
    exact hrest

/-- What was in the history stays, in its place. -/
theorem events_prefix_applyAll (calls : List (Clock × Call)) (m : StoredMessage) :
    m.events <+: (applyAll calls m).events := by
  induction calls generalizing m with
  | nil => exact List.prefix_rfl
  | cons c calls ih =>
    obtain ⟨added, hadds⟩ := c.2.apply_spec c.1 m
    exact (hadds.events ▸ List.prefix_append m.events added).trans (ih (c.2.apply c.1 m))

/-- **Audit history.**  After any calls on a new message the recorded changes lead from `Pending` to the state it
    is in, the recorded attempts are numbered from one to its counter, and what was recorded after some of
    the calls is still there after all. -/
theorem audit_history (clock : Clock) (counter : Nat) (source destination : String) (shortMessage : List UInt8)
    (systemId : String) (sequenceNumber : UInt32) (calls : List (Clock × Call))
    (hfew : attemptsOf calls < 2 ^ 32) (m : StoredMessage)
    (hm : m = (StoredMessage.new clock counter source destination shortMessage systemId sequenceNumber).1) :
    Leads .pending (changes (applyAll calls m).events) (applyAll calls m).state ∧
      (submissions (applyAll calls m).events).map UInt32.toNat = List.range' 1 (applyAll calls m).attempts.toNat ∧
      (applyAll calls m).attempts.toNat = attemptsOf calls ∧
      ∀ earlier later, calls = earlier ++ later →
        (applyAll earlier m).events <+: (applyAll calls m).events := by
  have hnew : Audited 0 m := by
    rw [hm]
    exact ⟨rfl, rfl, rfl⟩
  have haudited := hnew.applyAll calls
  rw [Nat.zero_add] at haudited
  have hcounter : (applyAll calls m).attempts.toNat = attemptsOf calls := by
    rw [haudited.attempts, UInt32.toNat_ofNat_of_lt' hfew]
  refine ⟨haudited.changes, ?_, hcounter, ?_⟩
  · rw [haudited.submissions, hcounter, List.map_map, List.range'_eq_map_range]
    refine List.map_congr_left fun i hi => ?_
    rw [List.mem_range] at hi
    show (UInt32.ofNat (i + 1)).toNat = 1 + i
    rw [UInt32.toNat_ofNat_of_lt' (Nat.lt_of_le_of_lt hi hfew), Nat.add_comm]
  · rintro earlier later rfl
    have happend : applyAll (earlier ++ later) m = applyAll later (applyAll earlier m) := List.foldl_append
    rw [happend]
    exact events_prefix_applyAll later _

/-- Two attempts, a retry between them. -/
theorem audit_history_retried :
    (applyAll [(⟨0, 0⟩, .markInFlight "smsc" "a"), (⟨1, 1⟩, .markRetry 5 none "busy"),
      (⟨6, 6⟩, .markInFlight "smsc" "a")] (StoredMessage.sample 0)).attempts.toNat = 2 :=
  (audit_history ⟨0, 0⟩ 0 _ _ _ _ _ _ (by decide) (StoredMessage.sample 0) rfl).2.2.1

end Smppd.Store
