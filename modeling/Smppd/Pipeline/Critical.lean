/-
  CRITICAL EVENTS between the bus and the sessions.

  `is_critical` is documented as "should not be dropped", and nothing looks at it.  Two of the critical
  events carry the messages: a `MessageSubmitRequest` has to reach the filter, and a `ResponseReady`
  the response processor and then the channel of its session.  They can be dropped in three places:

  * the bus is a ring: a publication may overwrite an event its consumer has not come to;
  * the channel of a session is bounded, and `send_response` drops what does not fit;
  * a session that dies without unregistering takes its channel with it.

  `Safe` says that nothing has been dropped, `Spares` is the condition on a step, and
  `critical_kept_iff` says that the one is exactly what the other needs: along any run, nothing is
  ever dropped if and only if every step meets the condition.
-/
import Smppd.Lib.Broadcast
import Smppd.Lib.Machine
import Smppd.Listener.Registry

set_option linter.unusedVariables false

namespace Smppd.Pipeline

open Smppd.Bootstrap Smppd.Listener Broadcast Machine

namespace Critical

/-! ## The bus and its consumers -/

/-- The number of slots of the bus: `broadcast::channel` refuses none. -/
structure Slots where
  size : Nat
  pos : 0 < size

/-- The two processors that consume critical events of the message flow. -/
inductive Consumer where
  | filter
  | response
  deriving DecidableEq

/-- The arm of the processor's loop that does something with the event. -/
def Consumer.wants : Consumer → Event → Bool
  | .filter, .messageSubmitRequest _ => true
  | .response, .responseReady _ => true
  | _, _ => false

/-- The event should not be dropped on its way to the consumer. -/
def Consumer.Needs (p : Consumer) (ev : Event) : Prop := ev.isCritical = true ∧ p.wants ev = true

/-- `FilteredSubscription`: which events pass. -/
def passes (categories : List EventCategory) (ev : Event) : Bool :=
  categories.isEmpty || categories.contains ev.category

/-- What a processor's subscription passes to its loop. -/
def seen : Received Event → Option Event
  | .ok ev => if passes [.message] ev then some ev else none
  | _ => none

/-! ## The machine -/

/-- The bus, its consumers, and the sessions. -/
structure Exchange where
  log : List Event
  receiver : Consumer → Option Receiver
  /-- The response that the response processor has taken and is about to send. -/
  hand : Option Tagged
  sessions : SessionRegistry
  /-- The session ids given out; `SessionId::new` gives none out twice. -/
  issued : List SessionId

/-- Nothing is subscribed, nobody is connected. -/
def boot : Exchange := ⟨[], fun _ => none, none, fun _ => none, []⟩

/-- What can happen next. -/
inductive Label where
  /-- A processor starts. -/
  | subscribe (p : Consumer)
  /-- Some component publishes an event. -/
  | publish (ev : Event)
  /-- A processor receives from its subscription. -/
  | recv (p : Consumer)
  /-- The response processor calls `send_response`. -/
  | send
  | register (sessionId : SessionId)
  | unregister (sessionId : SessionId)
  /-- A session takes a response from its channel. -/
  | sessionRecv (sessionId : SessionId)
  /-- A session dies without unregistering. -/
  | close (sessionId : SessionId)

/-- A response is published only for a session that there is or was: the one that submitted. -/
def mayPublish (issued : List SessionId) : Event → Bool
  | .responseReady response => decide (response.sessionId ∈ issued)
  | _ => true

/-- What the processor does with what it has received: the response processor goes on to send a
    response; what the filter does shows in what is published. -/
def Exchange.received (c : Exchange) (p : Consumer) (r : Receiver) (result : Received Event × Receiver) :
    Exchange :=
  let c := { c with receiver := Function.update c.receiver p (some result.2) }
  match p, seen result.1 with
  | .response, some (.responseReady response) => { c with hand := some (r.next, response) }
  | _, _ => c

/-- One step. -/
def step (slots : Slots) (c : Exchange) : Label → Option Exchange
  | .subscribe p =>
    match c.receiver p with
    | some _ => none
    | none => some { c with receiver := Function.update c.receiver p (some (subscribe c.log)) }
  | .publish ev => if mayPublish c.issued ev then some { c with log := c.log ++ [ev] } else none
  | .recv p =>
    -- the response processor sends one response before it receives the next
    if p = .response ∧ c.hand.isSome then none
    else (c.receiver p).map fun r => c.received p r (recv slots.size c.log r)
  | .send => c.hand.map fun x => { c with hand := none, sessions := (c.sessions.sendResponse x).2 }
  | .register sessionId =>
    if sessionId ∈ c.issued then none
    else some { c with sessions := c.sessions.register sessionId, issued := sessionId :: c.issued }
  | .unregister sessionId => some { c with sessions := c.sessions.unregister sessionId }
  | .sessionRecv sessionId =>
    ((c.sessions sessionId).bind SessionEntry.recv).map fun entry =>
      { c with sessions := Function.update c.sessions sessionId (some entry) }
  | .close sessionId =>
    (c.sessions sessionId).map fun entry =>
      { c with sessions := Function.update c.sessions sessionId (some entry.close) }

/-! ## Nothing is dropped -/

/-- **No critical event has been dropped**: the consumer has taken it or still can, and a response that
    the processor has taken, for a session that is still registered, is in the processor's hand, in
    the session's channel, or with the session. -/
structure Safe (slots : Slots) (c : Exchange) : Prop where
  bus : ∀ p r, c.receiver p = some r → Keeps p.Needs slots.size c.log r
  session : ∀ r i response entry, c.receiver .response = some r → i ∈ r.taken →
    c.log[i]? = some (.responseReady response) → c.sessions response.sessionId = some entry →
    c.hand = some (i, response) ∨ (i, response) ∈ entry.queue ∨ (i, response) ∈ entry.received

/-- The condition on a step: a publication overwrites nothing that its consumer has not come to, a
    response finds its session's channel open and with room, and no session dies with responses in its
    channel. -/
def Spares (slots : Slots) (c : Exchange) : Label → Prop
  | .publish _ => ∀ p r, c.receiver p = some r → Room p.Needs slots.size c.log r
  | .send => ∀ i response entry, c.hand = some (i, response) →
    c.sessions response.sessionId = some entry → entry.Accepts
  | .close sessionId => ∀ entry, c.sessions sessionId = some entry → entry.queue = []
  | _ => True

/-! ## The shape of a state -/

/-- The response was taken from the bus, at the position it is tagged with. -/
def Taken (c : Exchange) (x : Tagged) : Prop :=
  (∃ r, c.receiver .response = some r ∧ x.1 ∈ r.taken) ∧ c.log[x.1]? = some (.responseReady x.2)

/-- What every state looks like. -/
structure WF (c : Exchange) : Prop where
  receivers : ∀ p r, c.receiver p = some r → r.WF c.log
  published : ∀ (i : Nat) (response : ResponseEnvelope),
    c.log[i]? = some (.responseReady response) → response.sessionId ∈ c.issued
  hand : ∀ x, c.hand = some x → Taken c x
  issued : ∀ sessionId entry, c.sessions sessionId = some entry → sessionId ∈ c.issued
  /-- What a session has been sent was taken from the bus for it, before what is in hand now. -/
  sent : ∀ sessionId entry x, c.sessions sessionId = some entry →
    x ∈ entry.received ++ entry.queue → x.2.sessionId = sessionId ∧ Taken c x ∧
      ∀ y, c.hand = some y → x.1 < y.1
  /-- A session is sent its responses in the order of the bus, each once. -/
  order : ∀ sessionId entry, c.sessions sessionId = some entry →
    (entry.received ++ entry.queue).Pairwise fun x y => x.1 < y.1

section Shape

variable {c c' : Exchange}

/-- What was taken stays taken. -/
theorem Taken.mono {x : Tagged} (h : Taken c x)
    (hreceiver : ∀ r, c.receiver .response = some r → ∃ r', c'.receiver .response = some r' ∧
      ∀ i ∈ r.taken, i ∈ r'.taken)
    (hlog : ∀ (i : Nat) ev, c.log[i]? = some ev → c'.log[i]? = some ev) : Taken c' x := by
  obtain ⟨⟨r, hr, hi⟩, hget⟩ := h
  obtain ⟨r', hr', hsub⟩ := hreceiver r hr
  exact ⟨⟨r', hr', hsub _ hi⟩, hlog _ _ hget⟩

/-- Nothing changes at the sessions, and what was taken stays taken. -/
theorem WF.mono (h : WF c) (hreceivers : ∀ p r, c'.receiver p = some r → r.WF c'.log)
    (hpublished : ∀ (i : Nat) (response : ResponseEnvelope),
      c'.log[i]? = some (.responseReady response) → response.sessionId ∈ c'.issued)
    (htaken : ∀ x, Taken c x → Taken c' x) (hsessions : c'.sessions = c.sessions)
    (hissued : c'.issued = c.issued) (hhand : ∀ x, c'.hand = some x → Taken c' x ∧
      ∀ sessionId entry y, c.sessions sessionId = some entry → y ∈ entry.received ++ entry.queue →
        y.1 < x.1) : WF c' := by
  refine ⟨hreceivers, hpublished, fun x hx => (hhand x hx).1, fun sessionId entry hentry => ?_,
    fun sessionId entry x hentry hx => ?_, fun sessionId entry hentry => ?_⟩
  · rw [hsessions] at hentry
    rw [hissued]
    exact h.issued sessionId entry hentry
  · rw [hsessions] at hentry
    obtain ⟨hid, hx', -⟩ := h.sent sessionId entry x hentry hx
    exact ⟨hid, htaken x hx', fun y hy => (hhand y hy).2 sessionId entry x hentry hx⟩
  · rw [hsessions] at hentry
    exact h.order sessionId entry hentry

/-- Only one session changes, and the hand may be emptied. -/
theorem WF.setSession (h : WF c) {sessionId : SessionId} (entry : SessionEntry) {hand : Option Tagged}
    (hhand : ∀ x, hand = some x → c.hand = some x) (hissued : sessionId ∈ c.issued)
    (hsent : ∀ x ∈ entry.received ++ entry.queue, x.2.sessionId = sessionId ∧ Taken c x ∧
      ∀ y, hand = some y → x.1 < y.1)
    (horder : (entry.received ++ entry.queue).Pairwise fun x y => x.1 < y.1) :
    WF { c with hand := hand, sessions := Function.update c.sessions sessionId (some entry) } := by
  refine ⟨h.receivers, h.published, fun x hx => h.hand x (hhand x hx), fun sid e he => ?_,
    fun sid e x he hx => ?_, fun sid e he => ?_⟩
  all_goals
    change Function.update c.sessions sessionId (some entry) sid = some e at he
    by_cases hid : sid = sessionId
  · rw [hid]
    exact hissued
  · rw [Function.update_of_ne hid] at he
    exact h.issued sid e he
  · rw [hid, Function.update_self] at he
    cases he
    rw [hid]
    exact hsent x hx
  · rw [Function.update_of_ne hid] at he
    obtain ⟨hsid, htaken, hlt⟩ := h.sent sid e x he hx
    exact ⟨hsid, htaken, fun y hy => hlt y (hhand y hy)⟩
  · rw [hid, Function.update_self] at he
    cases he
    exact horder
  · rw [Function.update_of_ne hid] at he
    exact h.order sid e he

/-- What receiving leaves: a new receiver, and a response in hand if one was received. -/
theorem received_cases (c : Exchange) (p : Consumer) (r : Receiver)
    (result : Received Event × Receiver) :
    (c.received p r result = { c with receiver := Function.update c.receiver p (some result.2) } ∧
      (p = .response → ∀ response, result.1 ≠ .ok (.responseReady response))) ∨
    (p = .response ∧ ∃ response, result.1 = .ok (.responseReady response) ∧
      c.received p r result =
        { c with
          receiver := Function.update c.receiver p (some result.2)
          hand := some (r.next, response) }) := by
  cases p with
  | filter => exact Or.inl ⟨rfl, nofun⟩
  | response =>
    obtain ⟨told, r'⟩ := result
    cases told with
    | empty => exact Or.inl ⟨rfl, fun _ => nofun⟩
    | lagged missed => exact Or.inl ⟨rfl, fun _ => nofun⟩
    | ok ev =>
      cases hev : seen (.ok ev) with
      | none =>
        refine Or.inl ⟨?_, fun _ response hok => ?_⟩
        · unfold Exchange.received
          simp only [hev]
        · cases hok
          cases hev
      | some ev' =>
        have hpass : ev' = ev := by
          change (if passes [.message] ev then some ev else none) = some ev' at hev
          split at hev
          · exact (Option.some.inj hev).symm
          · cases hev
        subst hpass
        cases ev' with
        | responseReady response => exact Or.inr ⟨rfl, response, rfl, rfl⟩
        | _ =>
          refine Or.inl ⟨?_, fun _ => nofun⟩
          unfold Exchange.received
          simp only [hev]

end Shape

/-! ## Every step keeps the shape -/

section Steps

variable {slots : Slots} {c c' : Exchange}

theorem wf_subscribe {p : Consumer} (h : WF c) (hnone : c.receiver p = none) :
    WF { c with receiver := Function.update c.receiver p (some (subscribe c.log)) } := by
  have htaken : ∀ x, Taken c x →
      Taken { c with receiver := Function.update c.receiver p (some (subscribe c.log)) } x := by
    intro x hx
    refine hx.mono (fun r hr => ⟨r, ?_, fun _ hi => hi⟩) fun _ _ hget => hget
    have hne : Consumer.response ≠ p := by
      rintro rfl
      exact nomatch hnone.symm.trans hr
    show Function.update c.receiver p _ .response = some r
    rw [Function.update_of_ne hne]
    exact hr
  refine h.mono (fun p' r hr => ?_) h.published htaken rfl rfl fun x hx =>
    ⟨htaken x (h.hand x hx), fun sid entry y he hy => (h.sent sid entry y he hy).2.2 x hx⟩
  change Function.update c.receiver p _ p' = some r at hr
  by_cases hp : p' = p
  · rw [hp, Function.update_self] at hr
    cases hr
    exact Broadcast.wf_subscribe c.log
  · rw [Function.update_of_ne hp] at hr
    exact h.receivers p' r hr

theorem wf_publish {ev : Event} (h : WF c) (hmay : mayPublish c.issued ev = true) :
    WF { c with log := c.log ++ [ev] } := by
  have hlog : ∀ (i : Nat) ev', c.log[i]? = some ev' → (c.log ++ [ev])[i]? = some ev' := by
    intro i ev' hget
    obtain ⟨hlt, -⟩ := List.getElem?_eq_some_iff.mp hget
    rw [List.getElem?_append_left hlt]
    exact hget
  have htaken : ∀ x, Taken c x → Taken { c with log := c.log ++ [ev] } x := fun x hx =>
    hx.mono (fun r hr => ⟨r, hr, fun _ hi => hi⟩) hlog
  refine h.mono (fun p r hr => (h.receivers p r hr).send ev) (fun i response hget => ?_) htaken rfl rfl
    fun x hx => ⟨htaken x (h.hand x hx), fun sid entry y he hy => (h.sent sid entry y he hy).2.2 x hx⟩
  change (c.log ++ [ev])[i]? = _ at hget
  by_cases hlt : i < c.log.length
  · rw [List.getElem?_append_left hlt] at hget
    exact h.published i response hget
  · -- the event just published
    obtain ⟨hlt', -⟩ := List.getElem?_eq_some_iff.mp hget
    rw [List.length_append, List.length_singleton] at hlt'
    obtain rfl : i = c.log.length := by omega
    rw [List.getElem?_concat_length] at hget
    cases hget
    exact of_decide_eq_true hmay

/-- A receiver takes more and more. -/
theorem taken_recv (size : Nat) (log : List Event) (r : Receiver) :
    ∀ i ∈ r.taken, i ∈ (recv size log r).2.taken := by
  intro i hi
  rcases recv_cases size log r with ⟨-, heq⟩ | heq | ⟨value, -, heq⟩
  · rw [heq]
    exact hi
  · rw [heq]
    exact hi
  · rw [heq]
    exact List.mem_append_left _ hi

theorem wf_recv {p : Consumer} {r : Receiver} (h : WF c) (hr : c.receiver p = some r)
    (hhand : p = .response → c.hand = none) :
    WF (c.received p r (recv slots.size c.log r)) := by
  let r' := (recv slots.size c.log r).2
  have hreceivers : ∀ p' r'', Function.update c.receiver p (some r') p' = some r'' → r''.WF c.log := by
    intro p' r'' hr''
    by_cases hp : p' = p
    · rw [hp, Function.update_self] at hr''
      cases hr''
      exact (h.receivers p r hr).recv slots.size
    · rw [Function.update_of_ne hp] at hr''
      exact h.receivers p' r'' hr''
  have hsub : ∀ r₀, c.receiver .response = some r₀ →
      ∃ r₁, Function.update c.receiver p (some r') .response = some r₁ ∧ ∀ i ∈ r₀.taken, i ∈ r₁.taken := by
    intro r₀ hr₀
    by_cases hp : Consumer.response = p
    · rw [← hp, Function.update_self]
      rw [← hp, hr₀] at hr
      obtain rfl := Option.some.inj hr
      exact ⟨r', rfl, taken_recv slots.size c.log r₀⟩
    · rw [Function.update_of_ne hp]
      exact ⟨r₀, hr₀, fun _ hi => hi⟩
  rcases received_cases c p r (recv slots.size c.log r) with ⟨heq, -⟩ | ⟨hp, response, hok, heq⟩
  · rw [heq]
    have htaken : ∀ x, Taken c x →
        Taken { c with receiver := Function.update c.receiver p (some r') } x := fun x hx =>
      hx.mono hsub fun _ _ hget => hget
    exact h.mono hreceivers h.published htaken rfl rfl fun x hx =>
      ⟨htaken x (h.hand x hx), fun sid entry y he hy => (h.sent sid entry y he hy).2.2 x hx⟩
  · rw [heq]
    subst hp
    have htaken : ∀ x, Taken c x → Taken
        { c with
          receiver := Function.update c.receiver .response (some r')
          hand := some (r.next, response) } x := fun x hx => hx.mono hsub fun _ _ hget => hget
    refine h.mono hreceivers h.published htaken rfl rfl fun x hx => ?_
    cases hx
    -- the response just received is the one at the receiver's position
    rcases recv_cases slots.size c.log r with ⟨-, hrecv⟩ | hrecv | ⟨value, hget, hrecv⟩
    · rw [hrecv] at hok
      cases hok
    · rw [hrecv] at hok
      cases hok
    · have hr' : r' = { r with next := r.next + 1, taken := r.taken ++ [r.next] } :=
        congrArg Prod.snd hrecv
      rw [hrecv] at hok
      cases hok
      have hself : Function.update c.receiver .response (some r') .response = some r' :=
        Function.update_self _ _ _
      refine ⟨⟨⟨r', hself, ?_⟩, hget⟩, fun sid entry y he hy => ?_⟩
      · rw [hr']
        exact List.mem_append_right _ (List.mem_singleton_self _)
      · obtain ⟨-, ⟨⟨r₀, hr₀, hi⟩, -⟩, -⟩ := h.sent sid entry y he hy
        rw [hr] at hr₀
        cases hr₀
        exact (h.receivers .response r hr).taken y.1 hi

theorem wf_send {x : Tagged} (h : WF c) (hx : c.hand = some x) :
    WF { c with hand := none, sessions := (c.sessions.sendResponse x).2 } := by
  unfold SessionRegistry.sendResponse
  cases hentry : c.sessions x.2.sessionId with
  | none =>
    refine ⟨h.receivers, h.published, nofun, h.issued, fun sid entry y he hy => ?_, h.order⟩
    obtain ⟨hid, htaken, -⟩ := h.sent sid entry y he hy
    exact ⟨hid, htaken, nofun⟩
  | some entry =>
    have hsent := fun y hy => h.sent x.2.sessionId entry y hentry hy
    by_cases haccepts : entry.Accepts
    · simp only [entry.trySend_accepts haccepts]
      refine h.setSession { entry with queue := entry.queue ++ [x] } nofun
        (h.issued _ entry hentry) (fun y hy => ?_) ?_
      · rw [← List.append_assoc] at hy
        rcases List.mem_append.mp hy with hold | hnew
        · obtain ⟨hid, htaken, -⟩ := hsent y hold
          exact ⟨hid, htaken, nofun⟩
        · rw [List.mem_singleton.mp hnew]
          exact ⟨rfl, h.hand x hx, nofun⟩
      · show (entry.received ++ (entry.queue ++ [x])).Pairwise _
        rw [← List.append_assoc, List.pairwise_append]
        refine ⟨h.order _ entry hentry, List.pairwise_singleton _ _, fun y hy z hz => ?_⟩
        rw [List.mem_singleton.mp hz]
        exact (hsent y hy).2.2 x hx
    · have hsame := entry.trySend_refuses haccepts x
      simp only [hsame]
      refine h.setSession entry nofun (h.issued _ entry hentry) (fun y hy => ?_) (h.order _ entry hentry)
      obtain ⟨hid, htaken, -⟩ := hsent y hy
      exact ⟨hid, htaken, nofun⟩

theorem wf_register {sessionId : SessionId} (h : WF c) :
    WF { c with sessions := c.sessions.register sessionId, issued := sessionId :: c.issued } := by
  have hissued : WF { c with issued := sessionId :: c.issued } := by
    refine ⟨h.receivers, fun i response hget => ?_, h.hand, fun sid entry he => ?_, h.sent, h.order⟩
    · exact List.mem_cons_of_mem _ (h.published i response hget)
    · exact List.mem_cons_of_mem _ (h.issued sid entry he)
  exact hissued.setSession .new (fun x hx => hx) List.mem_cons_self (fun x hx => (nomatch hx))
    List.Pairwise.nil

theorem wf_unregister {sessionId : SessionId} (h : WF c) :
    WF { c with sessions := c.sessions.unregister sessionId } := by
  have hsub : ∀ sid entry, c.sessions.unregister sessionId sid = some entry →
      c.sessions sid = some entry := by
    intro sid entry he
    unfold SessionRegistry.unregister at he
    by_cases hid : sid = sessionId
    · rw [hid, Function.update_self] at he
      cases he
    · rw [Function.update_of_ne hid] at he
      exact he
  exact ⟨h.receivers, h.published, h.hand, fun sid entry he => h.issued sid entry (hsub sid entry he),
    fun sid entry x he hx => h.sent sid entry x (hsub sid entry he) hx,
    fun sid entry he => h.order sid entry (hsub sid entry he)⟩

/-- A session receives: the response goes from the head of its channel to the session. -/
theorem recv_eq_some {entry entry' : SessionEntry} (h : entry.recv = some entry') :
    entry'.received ++ entry'.queue = entry.received ++ entry.queue ∧
      ∀ x, x ∈ entry.queue ∨ x ∈ entry.received → x ∈ entry'.queue ∨ x ∈ entry'.received := by
  unfold SessionEntry.recv at h
  cases hq : entry.queue with
  | nil =>
    rw [hq] at h
    cases h
  | cons response rest =>
    rw [hq] at h
    cases h
    refine ⟨by simp, fun x hx => ?_⟩
    rcases hx with hqueue | hreceived
    · rcases List.mem_cons.mp hqueue with rfl | hrest
      · exact Or.inr (List.mem_append_right _ (List.mem_singleton_self _))
      · exact Or.inl hrest
    · exact Or.inr (List.mem_append_left _ hreceived)

/-- **What a step does**, and when it is taken. -/
inductive Stepped (slots : Slots) (c : Exchange) : Label → Exchange → Prop where
  | subscribe (p : Consumer) (hnone : c.receiver p = none) :
    Stepped slots c (.subscribe p) { c with receiver := Function.update c.receiver p (some (subscribe c.log)) }
  | publish (ev : Event) (hmay : mayPublish c.issued ev = true) :
    Stepped slots c (.publish ev) { c with log := c.log ++ [ev] }
  | recv (p : Consumer) (r : Receiver) (hr : c.receiver p = some r) (hhand : p = .response → c.hand = none) :
    Stepped slots c (.recv p) (c.received p r (recv slots.size c.log r))
  | send (x : Tagged) (hx : c.hand = some x) :
    Stepped slots c .send { c with hand := none, sessions := (c.sessions.sendResponse x).2 }
  | register (sessionId : SessionId) (hnew : sessionId ∉ c.issued) :
    Stepped slots c (.register sessionId)
      { c with sessions := c.sessions.register sessionId, issued := sessionId :: c.issued }
  | unregister (sessionId : SessionId) :
    Stepped slots c (.unregister sessionId) { c with sessions := c.sessions.unregister sessionId }
  | sessionRecv (sessionId : SessionId) (entry entry' : SessionEntry) (hentry : c.sessions sessionId = some entry)
    (hrecv : entry.recv = some entry') :
    Stepped slots c (.sessionRecv sessionId)
      { c with sessions := Function.update c.sessions sessionId (some entry') }
  | close (sessionId : SessionId) (entry : SessionEntry) (hentry : c.sessions sessionId = some entry) :
    Stepped slots c (.close sessionId)
      { c with sessions := Function.update c.sessions sessionId (some entry.close) }

theorem stepped {slots : Slots} {a : Label} {c' : Exchange} (hstep : step slots c a = some c') :
    Stepped slots c a c' := by
  cases a with
  | subscribe p =>
    simp only [step] at hstep
    split at hstep
    · cases hstep
    · rename_i hnone
      obtain rfl := Option.some.inj hstep
      exact .subscribe p hnone
  | publish ev =>
    simp only [step] at hstep
    split at hstep
    · rename_i hmay
      obtain rfl := Option.some.inj hstep
      exact .publish ev hmay
    · cases hstep
  | recv p =>
    simp only [step] at hstep
    split at hstep
    · cases hstep
    · rename_i hguard
      obtain ⟨r, hr, rfl⟩ := Option.map_eq_some_iff.mp hstep
      refine .recv p r hr fun hp => ?_
      cases hh : c.hand with
      | none => rfl
      | some x => exact absurd ⟨hp, by rw [hh]; rfl⟩ hguard
  | send =>
    obtain ⟨x, hx, rfl⟩ := Option.map_eq_some_iff.mp hstep
    exact .send x hx
  | register sessionId =>
    simp only [step] at hstep
    split at hstep
    · cases hstep
    · rename_i hnew
      obtain rfl := Option.some.inj hstep
      exact .register sessionId hnew
  | unregister sessionId =>
    obtain rfl := Option.some.inj hstep
    exact .unregister sessionId
  | sessionRecv sessionId =>
    obtain ⟨entry', hentry', rfl⟩ := Option.map_eq_some_iff.mp hstep
    obtain ⟨entry, hentry, hrecv⟩ := Option.bind_eq_some_iff.mp hentry'
    exact .sessionRecv sessionId entry entry' hentry hrecv
  | close sessionId =>
    obtain ⟨entry, hentry, rfl⟩ := Option.map_eq_some_iff.mp hstep
    exact .close sessionId entry hentry

/-- **The shape is kept** by every step. -/
theorem wf_step (slots : Slots) (c : Exchange) (a : Label) (c' : Exchange) (h : WF c)
    (hstep : step slots c a = some c') : WF c' := by
  cases stepped hstep with
  | subscribe p hnone => exact wf_subscribe h hnone
  | publish ev hmay => exact wf_publish h hmay
  | recv p r hr hhand => exact wf_recv h hr hhand
  | send x hx => exact wf_send h hx
  | register sessionId hnew => exact wf_register h
  | unregister sessionId => exact wf_unregister h
  | sessionRecv sessionId entry entry' hentry hrecv =>
    obtain ⟨hsame, -⟩ := recv_eq_some hrecv
    refine h.setSession entry' (fun x hx => hx) (h.issued _ entry hentry) (fun x hx => ?_) ?_
    · rw [hsame] at hx
      exact h.sent _ entry x hentry hx
    · rw [hsame]
      exact h.order _ entry hentry
  | close sessionId entry hentry =>
    refine h.setSession entry.close (fun x hx => hx) (h.issued _ entry hentry) (fun x hx => ?_) ?_
    · refine h.sent _ entry x hentry ?_
      change x ∈ entry.received ++ [] at hx
      rw [List.append_nil] at hx
      exact List.mem_append_left _ hx
    · show (entry.received ++ []).Pairwise _
      rw [List.append_nil]
      exact (List.pairwise_append.mp (h.order _ entry hentry)).1

theorem wf_boot : WF boot :=
  ⟨nofun, fun i response hget => (nomatch hget), nofun, nofun, nofun, nofun⟩

end Steps

/-! ## Which steps drop something -/

section Drops

variable {slots : Slots} {c : Exchange}

theorem safe_subscribe {p : Consumer} (hs : Safe slots c) (hnone : c.receiver p = none) :
    Safe slots { c with receiver := Function.update c.receiver p (some (subscribe c.log)) } := by
  refine ⟨fun p' r hr => ?_, fun r i response entry hr hi => ?_⟩
  · change Function.update c.receiver p _ p' = some r at hr
    by_cases hp : p' = p
    · rw [hp, Function.update_self] at hr
      cases hr
      exact keeps_subscribe p'.Needs slots.size c.log
    · rw [Function.update_of_ne hp] at hr
      exact hs.bus p' r hr
  · change Function.update c.receiver p _ .response = some r at hr
    by_cases hp : Consumer.response = p
    · rw [hp, Function.update_self] at hr
      cases hr
      cases hi
    · rw [Function.update_of_ne hp] at hr
      exact hs.session r i response entry hr hi

/-- A publication drops something exactly when it overwrites something still needed. -/
theorem safe_publish (h : WF c) (hs : Safe slots c) (ev : Event) :
    Safe slots { c with log := c.log ++ [ev] } ↔ Spares slots c (.publish ev) := by
  constructor
  · intro hs' p r hr
    exact (send_keeps_iff slots.pos (h.receivers p r hr) (hs.bus p r hr) ev).mp (hs'.bus p r hr)
  · intro hroom
    refine ⟨fun p r hr => ?_, fun r i response entry hr hi hget => ?_⟩
    · exact (send_keeps_iff slots.pos (h.receivers p r hr) (hs.bus p r hr) ev).mpr (hroom p r hr)
    · have hwf := h.receivers .response r hr
      have hlt : i < c.log.length := Nat.lt_of_lt_of_le (hwf.taken i hi) hwf.next
      change (c.log ++ [ev])[i]? = _ at hget
      rw [List.getElem?_append_left hlt] at hget
      exact hs.session r i response entry hr hi hget

/-- Receiving drops nothing. -/
theorem safe_recv {p : Consumer} {r : Receiver} (hs : Safe slots c) (hr : c.receiver p = some r)
    (hhand : p = .response → c.hand = none) :
    Safe slots (c.received p r (recv slots.size c.log r)) := by
  have hbus : ∀ p' r', Function.update c.receiver p (some (recv slots.size c.log r).2) p' = some r' →
      Keeps p'.Needs slots.size c.log r' := by
    intro p' r' hr'
    by_cases hp : p' = p
    · rw [hp, Function.update_self] at hr'
      cases hr'
      rw [hp]
      exact (hs.bus p r hr).recv
    · rw [Function.update_of_ne hp] at hr'
      exact hs.bus p' r' hr'
  rcases received_cases c p r (recv slots.size c.log r) with ⟨heq, hnot⟩ | ⟨hp, response₀, hok, heq⟩
  · rw [heq]
    refine ⟨hbus, fun r' i response entry hr' hi hget hentry => ?_⟩
    change Function.update c.receiver p _ .response = some r' at hr'
    by_cases hp : Consumer.response = p
    · subst hp
      rw [Function.update_self] at hr'
      cases hr'
      rcases recv_cases slots.size c.log r with ⟨-, hrecv⟩ | hrecv | ⟨value, hvalue, hrecv⟩
      · rw [hrecv] at hi
        exact hs.session r i response entry hr hi hget hentry
      · rw [hrecv] at hi
        exact hs.session r i response entry hr hi hget hentry
      · -- what was received is not a response
        rw [hrecv] at hi hnot
        rcases List.mem_append.mp hi with hold | hnew
        · exact hs.session r i response entry hr hold hget hentry
        · rw [List.mem_singleton.mp hnew] at hget
          change c.log[r.next]? = _ at hget
          rw [hvalue] at hget
          exact absurd (congrArg Received.ok (Option.some.inj hget)) (hnot rfl response)
    · rw [Function.update_of_ne hp] at hr'
      exact hs.session r' i response entry hr' hi hget hentry
  · rw [heq]
    subst hp
    refine ⟨hbus, fun r' i response entry hr' hi hget hentry => ?_⟩
    change Function.update c.receiver .response _ .response = some r' at hr'
    rw [Function.update_self] at hr'
    cases hr'
    rcases recv_cases slots.size c.log r with ⟨-, hrecv⟩ | hrecv | ⟨value, hvalue, hrecv⟩
    · rw [hrecv] at hok
      cases hok
    · rw [hrecv] at hok
      cases hok
    · rw [hrecv] at hi hok
      cases hok
      rcases List.mem_append.mp hi with hold | hnew
      · rcases hs.session r i response entry hr hold hget hentry with hin | hin
        · rw [hhand rfl] at hin
          cases hin
        · exact Or.inr hin
      · rw [List.mem_singleton.mp hnew] at hget ⊢
        change c.log[r.next]? = _ at hget
        rw [hvalue] at hget
        cases hget
        exact Or.inl rfl

/-- Only one session changes. -/
theorem Safe.setSession (hs : Safe slots c) {sessionId : SessionId} {entry entry' : SessionEntry}
    (hentry : c.sessions sessionId = some entry)
    (hkeep : ∀ x, x ∈ entry.queue ∨ x ∈ entry.received → x ∈ entry'.queue ∨ x ∈ entry'.received) :
    Safe slots { c with sessions := Function.update c.sessions sessionId (some entry') } := by
  refine ⟨hs.bus, fun r i response e hr hi hget he => ?_⟩
  change Function.update c.sessions sessionId (some entry') response.sessionId = some e at he
  by_cases hid : response.sessionId = sessionId
  · rw [hid, Function.update_self] at he
    cases he
    rw [← hid] at hentry
    rcases hs.session r i response entry hr hi hget hentry with hin | hin
    · exact Or.inl hin
    · exact Or.inr (hkeep _ hin)
  · rw [Function.update_of_ne hid] at he
    exact hs.session r i response e hr hi hget he

/-- A response is dropped exactly when its session is registered and its channel does not take it. -/
theorem safe_send {x : Tagged} (h : WF c) (hs : Safe slots c) (hx : c.hand = some x) :
    Safe slots { c with hand := none, sessions := (c.sessions.sendResponse x).2 } ↔
      Spares slots c .send := by
  obtain ⟨⟨r₀, hr₀, hi₀⟩, hget₀⟩ := h.hand x hx
  unfold SessionRegistry.sendResponse
  cases hentry : c.sessions x.2.sessionId with
  | none =>
    refine ⟨fun _ i response entry hin he => ?_, fun _ => ⟨hs.bus, fun r i response entry hr hi hget he => ?_⟩⟩
    · rw [hx] at hin
      cases hin
      exact nomatch hentry.symm.trans he
    · rcases hs.session r i response entry hr hi hget he with hin | hin
      · rw [hx] at hin
        cases hin
        exact nomatch hentry.symm.trans he
      · exact Or.inr hin
  | some entry =>
    by_cases haccepts : entry.Accepts
    · simp only [entry.trySend_accepts haccepts]
      refine ⟨fun _ i response e hin he => ?_, fun _ => ⟨hs.bus, fun r i response e hr hi hget he => ?_⟩⟩
      · rw [hx] at hin
        cases hin
        cases hentry.symm.trans he
        exact haccepts
      · change Function.update c.sessions x.2.sessionId _ response.sessionId = some e at he
        by_cases hid : response.sessionId = x.2.sessionId
        · rw [hid, Function.update_self] at he
          cases he
          rw [← hid] at hentry
          rcases hs.session r i response entry hr hi hget hentry with hin | hin | hin
          · rw [hx] at hin
            cases hin
            exact Or.inr (Or.inl (List.mem_append_right _ (List.mem_singleton_self _)))
          · exact Or.inr (Or.inl (List.mem_append_left _ hin))
          · exact Or.inr (Or.inr hin)
        · rw [Function.update_of_ne hid] at he
          rcases hs.session r i response e hr hi hget he with hin | hin
          · rw [hx] at hin
            cases hin
            exact absurd rfl hid
          · exact Or.inr hin
    · -- refused: the response is nowhere any more
      simp only [entry.trySend_refuses haccepts x]
      refine ⟨fun hs' => ?_, fun hspare => absurd (hspare x.1 x.2 entry hx hentry) haccepts⟩
      have hlost := hs'.session r₀ x.1 x.2 entry hr₀ hi₀ hget₀ (Function.update_self _ _ _)
      have hnot : x ∉ entry.received ++ entry.queue := by
        intro hin
        have := (h.sent _ entry x hentry hin).2.2 x hx
        omega
      rcases hlost with hin | hin | hin
      · cases hin
      · exact absurd (List.mem_append_right _ hin) hnot
      · exact absurd (List.mem_append_left _ hin) hnot

/-- A session that dies drops what was in its channel. -/
theorem safe_close {sessionId : SessionId} {entry : SessionEntry} (h : WF c) (hs : Safe slots c)
    (hentry : c.sessions sessionId = some entry) :
    Safe slots { c with sessions := Function.update c.sessions sessionId (some entry.close) } ↔
      Spares slots c (.close sessionId) := by
  constructor
  · intro hs' e he
    obtain rfl := Option.some.inj (hentry.symm.trans he)
    by_contra hne
    obtain ⟨x, hx⟩ := List.exists_mem_of_ne_nil _ hne
    obtain ⟨hid, ⟨⟨r, hr, hi⟩, hget⟩, hlt⟩ := h.sent _ entry x hentry (List.mem_append_right _ hx)
    have hself : Function.update c.sessions sessionId (some entry.close) x.2.sessionId =
        some entry.close := by
      rw [hid, Function.update_self]
    rcases hs'.session r x.1 x.2 entry.close hr hi hget hself with hin | hin | hin
    · have := hlt x hin
      omega
    · cases hin
    · have horder := (List.pairwise_append.mp (h.order _ entry hentry)).2.2 x hin x hx
      omega
  · intro hspare
    have hempty := hspare entry hentry
    refine hs.setSession hentry fun x hx => ?_
    rcases hx with hin | hin
    · rw [hempty] at hin
      cases hin
    · exact Or.inr hin

/-- A new session has not been sent anything. -/
theorem safe_register {sessionId : SessionId} (h : WF c) (hs : Safe slots c)
    (hnew : sessionId ∉ c.issued) :
    Safe slots
      { c with sessions := c.sessions.register sessionId, issued := sessionId :: c.issued } := by
  refine ⟨hs.bus, fun r i response entry hr hi hget he => ?_⟩
  have hid : response.sessionId ≠ sessionId := by
    intro hid
    rw [← hid] at hnew
    exact hnew (h.published i response hget)
  change Function.update c.sessions sessionId _ response.sessionId = some entry at he
  rw [Function.update_of_ne hid] at he
  exact hs.session r i response entry hr hi hget he

theorem safe_unregister {sessionId : SessionId} (hs : Safe slots c) :
    Safe slots { c with sessions := c.sessions.unregister sessionId } := by
  refine ⟨hs.bus, fun r i response entry hr hi hget he => ?_⟩
  change Function.update c.sessions sessionId none response.sessionId = some entry at he
  by_cases hid : response.sessionId = sessionId
  · rw [hid, Function.update_self] at he
    cases he
  · rw [Function.update_of_ne hid] at he
    exact hs.session r i response entry hr hi hget he

/-- **A step drops nothing exactly when it meets the condition.** -/
theorem safe_step_iff (slots : Slots) (c : Exchange) (a : Label) (c' : Exchange) (h : WF c)
    (hs : Safe slots c) (hstep : step slots c a = some c') : Safe slots c' ↔ Spares slots c a := by
  cases stepped hstep with
  | subscribe p hnone => exact iff_of_true (safe_subscribe hs hnone) trivial
  | publish ev hmay => exact safe_publish h hs ev
  | recv p r hr hhand => exact iff_of_true (safe_recv hs hr hhand) trivial
  | send x hx => exact safe_send h hs hx
  | register sessionId hnew => exact iff_of_true (safe_register h hs hnew) trivial
  | unregister sessionId => exact iff_of_true (safe_unregister hs) trivial
  | sessionRecv sessionId entry entry' hentry hrecv =>
    exact iff_of_true (hs.setSession hentry (recv_eq_some hrecv).2) trivial
  | close sessionId entry hentry => exact safe_close h hs hentry

theorem safe_boot (slots : Slots) : Safe slots boot := ⟨nofun, nofun⟩

end Drops

/-- **Critical events are kept along a run exactly when every step of it meets the condition**: no
    publication overwrites a critical event its consumer has not come to, and no response meets a
    channel of a registered session that is full or closed. -/
theorem critical_kept_iff (slots : Slots) (labels : List Label) (c : Exchange)
    (hrun : run (step slots) boot labels = some c) :
    (∀ before after t, labels = before ++ after → run (step slots) boot before = some t →
        Safe slots t) ↔
      Meets (step slots) (Spares slots) boot labels :=
  (meets_iff_always (wf_step slots) (safe_step_iff slots) wf_boot (safe_boot slots) hrun).symm

/-- The bus of the source's own tests, `Bus::new(16)`. -/
def sixteen : Slots := ⟨16, by decide⟩

/-- A submission of session 1, published on the bus. -/
def submission : Label :=
  .publish (.messageSubmitRequest ⟨⟨0⟩, ⟨1⟩, 7, "client1",
    { sourceAddr := "+258841234567", destAddr := "+258821234567", shortMessage := [72, 105] }, 0⟩)

/-- The filter takes the submission while it is in the ring: nothing is dropped. -/
theorem submission_kept :
    ∃ c, run (step sixteen) boot [.subscribe .filter, submission, .recv .filter] = some c ∧
      Safe sixteen c := by
  refine ⟨_, rfl, ?_⟩
  refine (critical_kept_iff sixteen [.subscribe .filter, submission, .recv .filter] _ rfl).mpr ?_
    [.subscribe .filter, submission, .recv .filter] [] _ rfl rfl
  refine (meets_cons rfl).mpr ⟨trivial, (meets_cons rfl).mpr ⟨?_, (meets_cons rfl).mpr
    ⟨trivial, trivial⟩⟩⟩
  intro p r hr i value hget
  cases hget

/-- Seventeen submissions before the filter comes to the first: the first is gone. -/
theorem submission_overwritten :
    ¬ ∀ (labels : List Label) (c : Exchange), run (step sixteen) boot labels = some c →
      Safe sixteen c := by
  intro hall
  have hexists : ∃ c r ev, run (step sixteen) boot (.subscribe .filter :: List.replicate 17 submission) =
        some c ∧ c.receiver .filter = some r ∧ r.since = 0 ∧ r.taken = [] ∧ c.log.length = 17 ∧
        c.log[0]? = some ev ∧ Consumer.filter.Needs ev :=
    ⟨_, _, _, rfl, rfl, rfl, rfl, rfl, rfl, rfl, rfl⟩
  obtain ⟨c, r, ev, hrun, hr, hsince, htaken, hlength, hget, hneeds⟩ := hexists
  rcases (hall _ c hrun).bus .filter r hr 0 ev hget hneeds (by omega) with hin | ⟨-, hring⟩
  · rw [htaken] at hin
    cases hin
  · change c.log.length ≤ 0 + 16 at hring
    omega

end Critical

end Smppd.Pipeline
