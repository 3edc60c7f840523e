/-
  OWNERSHIP: which task may write the state of which message.

  No transition method checks the state it overwrites, so what keeps the tasks of the forwarder from
  overwriting one another is a discipline none of them spells out.  Each kind of task takes hold of
  messages in ONE state only, and writes a message once after it has taken hold of it:

  * a request task owns the message it has just stored, which is `Pending`;
  * the retry task owns a message it has loaded and found `Retrying`;
  * the receipt task owns a message its query has returned as `InFlight`.

  `ownSpec` is that discipline as a specification of the calls, with what a task holds as the ghost
  value; `wp_processRequest`, `wp_processRetries` and `wp_processDlr` say that the three bodies keep
  it.  A body that owns a message goes on to overwrite its state WHATEVER it is told on the way
  (`bound_of_owns`): that is the window in which an expiry does harm.
-/
import Smppd.Forwarder.Retry
import Smppd.Forwarder.Dlr

set_option linter.unusedVariables false

namespace Smppd.Forwarder

open Smppd.Store Smppd.Gateway Prog

variable {D : Type}

/-! ## The discipline -/

/-- The kinds of task that write message states. -/
inductive Role where
  | request
  | retry
  | dlr
  deriving DecidableEq

/-- The state in which a task takes hold of a message. -/
def Role.state : Role → MessageState
  | .request => .pending
  | .retry => .retrying
  | .dlr => .inFlight

/-- What a task holds. -/
inductive Hold where
  | nothing
  /-- An id drawn, nothing stored under it yet. -/
  | drawn (id : MessageId)
  /-- The message is in the state of the role, and the next to write it is this task. -/
  | owns (id : MessageId)
  /-- A request task that has written its message, the only one it ever has. -/
  | closed
  deriving DecidableEq

/-- A task that has nothing left to write. -/
def Hold.Free (g : Hold) : Prop := g = .nothing ∨ g = .closed

/-- What a task of the role holds after it has written the message it owned. -/
def Role.released : Role → Hold
  | .request => .closed
  | _ => .nothing

theorem Role.released_free (role : Role) : role.released.Free := by
  cases role
  · exact Or.inr rfl
  · exact Or.inl rfl
  · exact Or.inl rfl

/-- A message that waits to be sent has no upstream id. -/
def Sane (m : StoredMessage) : Prop :=
  m.state = .pending ∨ m.state = .retrying → m.smscMessageId = none

/-- A closure that only writes to the history of a message. -/
structure Annotates (f : Clock → StoredMessage → StoredMessage) : Prop where
  id : ∀ clock m, (f clock m).id = m.id
  state : ∀ clock m, (f clock m).state = m.state
  smsc : ∀ clock m, (f clock m).smscMessageId = m.smscMessageId

/-- A closure that moves a message on from the state of the role. -/
structure Transition (role : Role) (f : Clock → StoredMessage → StoredMessage) : Prop where
  id : ∀ clock m, (f clock m).id = m.id
  smsc : ∀ clock m, (f clock m).smscMessageId = m.smscMessageId ∨ (f clock m).state = .inFlight
  sane : ∀ clock m, Sane m → m.state = role.state → Sane (f clock m)
  /-- It overwrites: there are states it does not leave alone. -/
  changes : ∃ clock m, (f clock m).state ≠ m.state

/-- What each call of a task does to what the task holds. -/
def ownSpec (role : Role) : Spec (Op (Output D)) Op.Res Hold
  | .newMessage .., post, g =>
    role = .request ∧ g = .nothing ∧
      ∀ m : StoredMessage, m.state = .pending → m.smscMessageId = none → post m (.drawn m.id)
  | .store m, post, g =>
    role = .request ∧ g = .drawn m.id ∧ m.state = .pending ∧ m.smscMessageId = none ∧ post () (.owns m.id)
  | .get id, post, g =>
    (g ≠ .nothing ∧ ∀ r, post r g) ∨
      (g = .nothing ∧ ∀ r : Option StoredMessage, post r .nothing ∨
        (role = .retry ∧ ∃ m, r = some m ∧ m.state = role.state ∧ post r (.owns id)))
  | .query q, post, g =>
    role = .dlr ∧ g = .nothing ∧ ∃ state n, q = .byState state n ∧
      ∀ r : List StoredMessage, (∀ m ∈ r, Sane m ∧ m.state = state) →
        post r .nothing ∨ ∃ m ∈ r, m.state = role.state ∧ post r (.owns m.id)
  | .update id f, post, g =>
    g = .owns id ∧
      ((Annotates f ∧ ∀ b, post b (.owns id)) ∨ (Transition role f ∧ ∀ b, post b role.released))
  | _, post, g => ∀ r, post r g

/-! ## The closures the bodies use -/

section Closures

/-- A closure whose result is in a fixed state overwrites whatever differs from it. -/
theorem changes_of_constant {f : Clock → StoredMessage → StoredMessage} {state : MessageState}
    (h : ∀ clock m, (f clock m).state = state) : ∃ clock m, (f clock m).state ≠ m.state := by
  refine ⟨⟨0, 0⟩, { StoredMessage.sample 0 with
    state := if state = .delivered then .failed else .delivered }, ?_⟩
  rw [h]
  show state ≠ if state = .delivered then .failed else .delivered
  cases state <;> decide

theorem annotates_recordResponse (status : UInt32) (messageId : Option String) (latency : UInt64) :
    Annotates fun clock m => m.recordResponse clock status messageId latency :=
  ⟨fun _ _ => rfl, fun _ _ => rfl, fun _ _ => rfl⟩

/-- A closure that ends in a fixed state in which nothing waits to be sent. -/
theorem transition_to {f : Clock → StoredMessage → StoredMessage} (role : Role)
    (state : MessageState) (hne : state ≠ .pending ∧ state ≠ .retrying)
    (hst : ∀ clock m, (f clock m).state = state) (hid : ∀ clock m, (f clock m).id = m.id)
    (hsmsc : ∀ clock m, (f clock m).smscMessageId = m.smscMessageId ∨ state = .inFlight) :
    Transition role f := by
  refine ⟨hid, ?_, ?_, changes_of_constant hst⟩
  · intro clock m
    rw [hst]
    exact hsmsc clock m
  · intro clock m _ _ hwaits
    rw [hst] at hwaits
    rcases hwaits with h | h
    · exact absurd h hne.1
    · exact absurd h hne.2

theorem transition_accepted (role : Role) (name upstreamId : String) :
    Transition role (accepted name upstreamId) :=
  transition_to role .inFlight (by decide) (fun _ _ => rfl) (fun _ _ => rfl) fun _ _ => Or.inr rfl

theorem transition_markFailed (role : Role) (code : Option UInt32) (error : String) :
    Transition role fun clock m => m.markFailed clock code error :=
  transition_to role .failed (by decide) (fun _ _ => rfl) (fun _ _ => rfl) fun _ _ => Or.inl rfl

theorem transition_markExpired (role : Role) :
    Transition role fun clock m => m.markExpired clock :=
  transition_to role .expired (by decide) (fun _ _ => rfl) (fun _ _ => rfl) fun _ _ => Or.inl rfl

/-- Only a task that owns a waiting message may put it back to waiting. -/
theorem transition_markRetry {role : Role} (hrole : role ≠ .dlr) (delay : Duration)
    (code : Option UInt32) (error : String) :
    Transition role fun clock m => m.markRetry clock delay code error := by
  refine ⟨fun _ _ => rfl, fun _ _ => Or.inl rfl, fun clock m hsane hst _ => hsane ?_,
    changes_of_constant fun _ _ => rfl⟩
  cases role with
  | request => exact Or.inl hst
  | retry => exact Or.inr hst
  | dlr => exact absurd rfl hrole

theorem transition_settle {dlr : DeliveryReceipt} (hfin : dlr.status.isFinal = true) :
    Transition .dlr (settle dlr) := by
  cases hs : dlr.status.isSuccess with
  | true =>
    have hsettle : ∀ clock m, settle dlr clock m =
        { m.recordDeliveryReceipt clock dlr.status.asStr dlr.errorCode with
          state := .delivered } := by
      intro clock m
      unfold settle
      rw [if_pos hs]
    refine transition_to .dlr .delivered (by decide) ?_ ?_ ?_ <;> intro clock m <;> rw [hsettle]
    · rfl
    · exact Or.inl rfl
  | false =>
    have hf : dlr.status.isFailure = true := by
      rw [DeliveryStatus.isFinal_iff, hs] at hfin
      exact hfin
    have hsettle : ∀ clock m, settle dlr clock m =
        { m.recordDeliveryReceipt clock dlr.status.asStr dlr.errorCode with
          state := .failed
          lastErrorCode := dlr.errorCode
          lastError := some ("DLR: " ++ dlr.status.asStr) } := by
      intro clock m
      unfold settle
      rw [if_neg (by rw [hs]; decide), if_pos hf]
    refine transition_to .dlr .failed (by decide) ?_ ?_ ?_ <;> intro clock m <;> rw [hsettle]
    · rfl
    · exact Or.inl rfl

end Closures

/-! ## The three bodies keep the discipline -/

section Bodies

/-- Trying clusters leaves what the task holds as it is. -/
theorem frames_owns (id : MessageId) : Frames (ownSpec .request : Spec (Op (Output D)) _ _) id (.owns id) where
  cluster name post h := h
  connection name post h := h
  send name pdu post h := h
  record status messageId latency post h := ⟨rfl, Or.inl ⟨annotates_recordResponse _ _ _, h⟩⟩

/-- **A request task** draws an id, owns the message from its `store` on, and gives it up with the one
    update that moves it on. -/
theorem wp_processRequest (request : ForwardRequest) :
    (processRequest request : Body (Output D) Unit).wp (ownSpec .request)
      (fun _ g => g.Free) .nothing := by
  unfold processRequest
  refine ⟨rfl, rfl, fun m hst hsmsc => ⟨rfl, rfl, hst, hsmsc, fun route => ?_⟩⟩
  cases route with
  | none => exact ⟨rfl, Or.inr ⟨transition_markFailed .request _ _, fun _ _ => Or.inr rfl⟩⟩
  | some route =>
    show Prog.wp _ (tryClusters m.id _ _ _ >>= _) _ _
    rw [wp_bind]
    have hframes := frames_owns (D := D) m.id
    refine wp_tryClusters (hframes.attempts _) hframes.record _ _ fun r => ?_
    cases r with
    | ok reached =>
      exact ⟨rfl, Or.inr ⟨transition_accepted .request _ _, fun _ _ => Or.inr rfl⟩⟩
    | error lastError =>
      refine Or.inl ⟨nofun, fun current clock => ?_⟩
      dsimp only [Prog.bind]
      cases (current.map fun m => m.canRetry clock).getD false with
      | true =>
        exact ⟨rfl, Or.inr ⟨transition_markRetry (by decide) _ _ _, fun _ _ => Or.inr rfl⟩⟩
      | false => exact ⟨rfl, Or.inr ⟨transition_markFailed .request _ _, fun _ _ => Or.inr rfl⟩⟩

/-- Trying clusters again changes nothing in what the task holds. -/
theorem attempts_owns (pdu : SubmitSm) (g : Hold) :
    Attempts (ownSpec .retry : Spec (Op (Output D)) _ _) pdu g :=
  ⟨fun _ _ h => h, fun _ _ h => h, fun _ _ h => h⟩

/-- The retry task owns a message from the check that found it `Retrying` to its one update. -/
theorem wp_retryMessage (config : RetryConfig) (id : MessageId)
    {post : Unit → Hold → Prop} (hpost : post () .nothing) :
    (retryMessage config id : Body (Output D) Unit).wp (ownSpec .retry) post .nothing := by
  unfold retryMessage
  simp only [request_bind]
  refine Or.inr ⟨rfl, fun r => ?_⟩
  cases r with
  | none => exact Or.inl hpost
  | some current =>
    by_cases hst : current.state = .retrying
    · refine Or.inr ⟨rfl, current, rfl, hst, ?_⟩
      simp only [if_neg (not_not.mpr hst)]
      split
      · exact ⟨rfl, Or.inr ⟨transition_markFailed .retry _ _, fun _ => hpost⟩⟩
      · intro clock
        beta_reduce
        cases current.isExpired clock with
        | true => exact ⟨rfl, Or.inr ⟨transition_markExpired .retry, fun _ => hpost⟩⟩
        | false =>
          intro route
          cases route with
          | none => exact ⟨rfl, Or.inr ⟨transition_markFailed .retry _ _, fun _ => hpost⟩⟩
          | some route =>
            show Prog.wp _ (retryClusters current _ >>= _) _ _
            rw [wp_bind]
            refine wp_retryClusters (attempts_owns _ _) _ fun reached => ?_
            cases reached with
            | some reached =>
              exact ⟨rfl, Or.inr ⟨transition_accepted .retry _ _, fun _ => hpost⟩⟩
            | none =>
              exact ⟨rfl, Or.inr ⟨transition_markRetry (by decide) _ _ _, fun _ => hpost⟩⟩
    · refine Or.inl ?_
      simp only [if_pos hst]
      exact hpost

theorem wp_retryAll (config : RetryConfig) (msgs : List StoredMessage) :
    (retryAll config msgs : Body (Output D) Unit).wp (ownSpec .retry)
      (fun _ g => g.Free) .nothing := by
  induction msgs with
  | nil => exact Or.inl rfl
  | cons msg rest ih =>
    unfold retryAll
    rw [wp_bind]
    exact wp_retryMessage config msg.id ih

/-- **The retry task** takes its messages one after the other. -/
theorem wp_processRetries (config : RetryConfig) :
    (processRetries config : Body (Output D) Unit).wp (ownSpec .retry)
      (fun _ g => g.Free) .nothing := by
  unfold processRetries
  intro ready
  exact wp_retryAll config ready

theorem wp_forwardToClient (systemId : String) (deliver : D) {post : Unit → Hold → Prop} {g : Hold}
    (hpost : post () g) :
    (forwardToClient systemId deliver).wp (ownSpec .dlr) post g := by
  unfold forwardToClient
  intro session
  cases session with
  | false => exact hpost
  | true =>
    intro sent
    exact hpost

/-- No message that waits to be sent carries an upstream id. -/
theorem find?_carries_retrying {smscId : String} {r : List StoredMessage}
    (h : ∀ m ∈ r, Sane m ∧ m.state = .retrying) :
    r.find? (carries smscId) = none := by
  rw [List.find?_eq_none]
  intro m hm hcarries
  obtain ⟨hsane, hst⟩ := h m hm
  have hnone := hsane (Or.inr hst)
  have hsome : m.smscMessageId = some smscId := of_decide_eq_true hcarries
  rw [hnone] at hsome
  cases hsome

/-- **The receipt task** owns the `InFlight` message its query returned, until it settles it. -/
theorem wp_processDlr (codec : DlrCodec D) (event : DlrEvent D) :
    (processDlr codec event).wp (ownSpec .dlr) (fun _ g => g.Free) .nothing := by
  unfold processDlr
  cases codec.parseDlr event.deliverSm with
  | none => exact Or.inl rfl
  | some dlr =>
    simp only [wp_bind]
    unfold findMessageBySmscId
    simp only [request_bind]
    refine ⟨rfl, rfl, .inFlight, 1000, rfl, fun inFlight hin => ?_⟩
    cases hfind : inFlight.find? (carries dlr.smscMessageId) with
    | some message =>
      have hmem := List.mem_of_find?_eq_some hfind
      have hst : message.state = .inFlight := (hin message hmem).2
      cases hfin : dlr.status.isFinal with
      | true =>
        refine Or.inr ⟨message, hmem, hst, ?_⟩
        simp only [hfind, pure_eq, wp_ret, if_true]
        exact ⟨rfl, Or.inr ⟨transition_settle hfin, fun _ => wp_forwardToClient _ _ (Or.inl rfl)⟩⟩
      | false =>
        refine Or.inl ?_
        simp only [hfind, pure_eq, wp_ret, Bool.false_eq_true, if_false]
        exact wp_forwardToClient message.systemId event.deliverSm (Or.inl rfl)
    | none =>
      refine Or.inl ?_
      beta_reduce
      rw [hfind]
      refine ⟨rfl, rfl, .retrying, 1000, rfl, fun retrying hret => Or.inl ?_⟩
      have hnone : retrying.find? (carries dlr.smscMessageId) = none :=
        find?_carries_retrying hret
      simp only [pure_eq, wp_ret, hnone]
      exact Or.inl rfl

end Bodies

/-! ## Owning a message is being bound to write it -/

/-- The call overwrites the state of the message. -/
def Overwrites (id : MessageId) : Op (Output D) → Prop
  | .update id' f => id' = id ∧ ∃ clock m, (f clock m).state ≠ m.state
  | _ => False

/-- Whatever it is answered from here on, the body goes on to overwrite the state of the message. -/
def Bound (id : MessageId) : Body (Output D) Unit → Prop
  | .ret _ => False
  | .call op k => Overwrites id op ∨ ∀ r, Bound id (k r)

theorem bound_of_owns {role : Role} {id : MessageId} {p : Body (Output D) Unit}
    (h : p.wp (ownSpec role) (fun _ g => g.Free) (.owns id)) : Bound id p := by
  induction p with
  | ret a => rcases h with h | h <;> cases h
  | call op k ih =>
    cases op with
    | newMessage => exact nomatch h.2.1
    | store m => exact nomatch h.2.1
    | query q => exact nomatch h.2.1
    | get id' =>
      rcases h with ⟨-, hpost⟩ | ⟨hnothing, -⟩
      · exact Or.inr fun r => ih r (hpost r)
      · cases hnothing
    | update id' f =>
      obtain ⟨hid, ⟨-, hpost⟩ | ⟨htrans, -⟩⟩ := h
      · cases hid
        exact Or.inr fun b => ih b (hpost b)
      · cases hid
        exact Or.inl ⟨rfl, htrans.changes⟩
    | _ => exact Or.inr fun r => ih r (h r)

end Smppd.Forwarder
