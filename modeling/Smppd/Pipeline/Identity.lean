/-
  IDENTITY of a message on its way through the pipeline.

  A session draws an id for the envelope; `route_message` draws ANOTHER one for the record it stores,
  and every later access to the store is by the id of the envelope.  Both ids come from one counter,
  so they never agree: as long as the counter has not gone round, there is no record under the id of
  any envelope, in any state the pipeline can reach (`Apart`).

  So what one expects of the pipeline (`Identity`) is false as soon as `route_message` has run once.
  It holds along the runs in which the filter rejects everything (`Barred`).
-/
import Smppd.Pipeline.Responses

set_option linter.unusedVariables false

namespace Smppd.Pipeline

open Smppd.Store Smppd.Gateway Smppd.Bootstrap Prog Machine

variable {S : Type} [Storage S]

/-! ## What one expects -/

/-- The record is one of the envelope's message. -/
def Records (e : MessageEnvelope) (m : StoredMessage) : Prop :=
  m.source = e.submitSm.sourceAddr ∧ m.destination = e.submitSm.destAddr ∧
    m.shortMessage = e.submitSm.shortMessage ∧ m.systemId = e.systemId

/-- The record is in the state that the published outcome of the message asks for. -/
def AsReported (log : List Event) (e : MessageEnvelope) (m : StoredMessage) : Prop :=
  (∀ sessionId sequenceNumber smscId latency,
    .messageDelivered e.messageId sessionId sequenceNumber smscId latency ∈ log →
      m.state = .inFlight ∧ m.smscMessageId = some smscId) ∧
  ((∀ sessionId sequenceNumber smscId latency,
    .messageDelivered e.messageId sessionId sequenceNumber smscId latency ∉ log) →
      m.state = .retrying ∨ m.state = .failed)

/-- **The identity of messages**: the record of a message is under the id of its envelope. -/
structure Identity (c : Config S) : Prop where
  /-- Once `route_message` has run, there is a record under the envelope's id. -/
  stored : ∀ e, (.router, e) ∈ c.state.finished → ∀ env,
    ∃ m, Storage.get env e.messageId c.state.world.storage = some m ∧ Records e m
  /-- Once `forward_message` has run, the record says how it ended. -/
  outcome : ∀ n e, (.forward n, e) ∈ c.state.finished → ∀ env,
    ∃ m, Storage.get env e.messageId c.state.world.storage = some m ∧ Records e m ∧
      AsReported c.state.log e m
  /-- No other record is left `Pending`. -/
  leftover : idle (c.task .router) = true → ∀ env id m,
    Storage.get env id c.state.world.storage = some m → m.state = .pending →
      ∃ e ∈ submitted c.state, e.messageId = id

/-! ## Envelopes and records have different ids -/

/-- The envelope occurs somewhere in the pipeline. -/
inductive Mentioned (s : Shared S) (γ : Tid → Work) : MessageEnvelope → Prop
  | published {ev : Event} {p : Processor} {e : MessageEnvelope} (hev : ev ∈ s.log)
      (htakes : p.takes ev = some e) : Mentioned s γ e
  | held {job : Job} (h : s.held = some job) : Mentioned s γ job.envelope
  | owed {t : Tid} {e : MessageEnvelope} (h : (γ t).owed = some e) : Mentioned s γ e
  | given {t : Tid} {e : MessageEnvelope} (h : s.job t = some e) : Mentioned s γ e
  | finished {t : Tid} {e : MessageEnvelope} (h : (t, e) ∈ s.finished) : Mentioned s γ e

/-- The id has been drawn for something else than a record. -/
structure Foreign (s : Shared S) (γ : Tid → Work) (id : MessageId) : Prop where
  below : id.val.toNat < s.world.counter
  absent : Absent s.world.storage id
  undrawn : ∀ t, (γ t).drawn ≠ some id

variable [LawfulStorage S]

/-- **The invariant**: the id of every envelope is foreign to the store. -/
structure Apart (s : Shared S) (γ : Tid → Work) : Prop where
  wf : LawfulStorage.WF s.world.storage
  fresh : ∀ id : MessageId, s.world.counter ≤ id.val.toNat → Absent s.world.storage id
  drawn : ∀ t id, (γ t).drawn = some id → id.val.toNat < s.world.counter
  foreign : ∀ e, Mentioned s γ e → Foreign s γ e.messageId

section Invariant

variable {s s' : Shared S} {γ γ' : Tid → Work}

/-- A step that touches neither the store nor the counter, and makes nothing up. -/
theorem Apart.mono (h : Apart s γ) (hstorage : s'.world.storage = s.world.storage)
    (hcounter : s'.world.counter = s.world.counter)
    (hmentioned : ∀ e, Mentioned s' γ' e → Mentioned s γ e)
    (hdrawn : ∀ t id, (γ' t).drawn = some id → (γ t).drawn = some id) : Apart s' γ' := by
  refine ⟨?_, fun id hid => ?_, fun t id hid => ?_, fun e he => ?_⟩
  · rw [hstorage]
    exact h.wf
  · rw [hcounter] at hid
    rw [hstorage]
    exact h.fresh id hid
  · rw [hcounter]
    exact h.drawn t id (hdrawn t id hid)
  · obtain ⟨hbelow, habsent, hundrawn⟩ := h.foreign e (hmentioned e he)
    refine ⟨?_, ?_, fun t hid => hundrawn t (hdrawn t _ hid)⟩
    · rw [hcounter]
      exact hbelow
    · rw [hstorage]
      exact habsent

omit [Storage S] [LawfulStorage S] in
/-- What the bodies have drawn, when one of them has not drawn anything new. -/
theorem drawn_update {t : Tid} {g : Work} (hg : ∀ id, g.drawn = some id → (γ t).drawn = some id)
    (t' : Tid) (id : MessageId) (h : (Function.update γ t g t').drawn = some id) :
    (γ t').drawn = some id := by
  by_cases htt : t' = t
  · rw [htt, Function.update_self] at h
    rw [htt]
    exact hg id h
  · rw [Function.update_of_ne htt] at h
    exact h

omit [Storage S] [LawfulStorage S] in
/-- What the bodies owe, when one of them does not owe more than before. -/
theorem owed_update {t : Tid} {g : Work} (hg : ∀ e, g.owed = some e → (γ t).owed = some e)
    (t' : Tid) (e : MessageEnvelope) (h : (Function.update γ t g t').owed = some e) :
    (γ t').owed = some e := by
  by_cases htt : t' = t
  · rw [htt, Function.update_self] at h
    rw [htt]
    exact hg e h
  · rw [Function.update_of_ne htt] at h
    exact h

omit [Storage S] [LawfulStorage S] in
/-- Nothing is made up when every place mentions only what was mentioned before. -/
theorem mentioned_of {e : MessageEnvelope} (h : Mentioned s' γ' e)
    (hlog : ∀ ev ∈ s'.log, ∀ p e, Processor.takes p ev = some e → Mentioned s γ e)
    (hheld : ∀ job, s'.held = some job → Mentioned s γ job.envelope)
    (howed : ∀ t e, (γ' t).owed = some e → Mentioned s γ e)
    (hgiven : ∀ t e, s'.job t = some e → Mentioned s γ e)
    (hfinished : ∀ t e, (t, e) ∈ s'.finished → Mentioned s γ e) : Mentioned s γ e := by
  cases h with
  | published hmem htakes => exact hlog _ hmem _ _ htakes
  | held h => exact hheld _ h
  | owed h => exact howed _ _ h
  | given h => exact hgiven _ _ h
  | finished h => exact hfinished _ _ h

omit [Storage S] [LawfulStorage S] in
/-- Publishing an event, and giving up what was owed. -/
theorem mentioned_publish {ev : Event} (hev : ∀ p e, Processor.takes p ev = some e → Mentioned s γ e)
    (howed : ∀ t e, (γ' t).owed = some e → (γ t).owed = some e) (e : MessageEnvelope)
    (h : Mentioned (s.publish ev) γ' e) : Mentioned s γ e := by
  refine mentioned_of h (fun ev' hmem p e he => ?_) (fun _ h => .held h)
    (fun t e he => .owed (howed t e he)) (fun _ _ h => .given h) fun _ _ h => .finished h
  rcases List.mem_append.mp hmem with hold | hnew
  · exact .published hold he
  · rw [List.mem_singleton.mp hnew] at he
    exact hev p e he

omit [Storage S] [LawfulStorage S] in
/-- Changing the store and the counter. -/
theorem mentioned_world {w : World S Event} {e : MessageEnvelope} (hw : w.sent = s.world.sent)
    (h : Mentioned { s with world := w } γ' e)
    (howed : ∀ t e, (γ' t).owed = some e → (γ t).owed = some e) : Mentioned s γ e := by
  refine mentioned_of h (fun ev hmem p e he => ?_) (fun _ h => .held h)
    (fun t e he => .owed (howed t e he)) (fun _ _ h => .given h) fun _ _ h => .finished h
  change ev ∈ w.sent at hmem
  rw [hw] at hmem
  exact .published hmem he

omit [Storage S] [LawfulStorage S] in
/-- The event a processor is about to read mentions its envelope. -/
theorem mentioned_next {p : Processor} {ev : Event} {e : MessageEnvelope}
    (hev : s.log[s.seen p]? = some ev) (htakes : p.takes ev = some e) : Mentioned s γ e :=
  .published (List.mem_of_getElem? hev) htakes

omit [Storage S] [LawfulStorage S] in
/-- A body is given an envelope that was mentioned before. -/
theorem mentioned_given {t : Tid} {e : MessageEnvelope} (he : Mentioned s γ e) :
    (∀ t' e', (Function.update γ t (Work.given e) t').owed = some e' → Mentioned s γ e') ∧
      ∀ t' e', Function.update s.job t (some e) t' = some e' → Mentioned s γ e' := by
  refine ⟨fun t' e' h => ?_, fun t' e' h => ?_⟩
  · by_cases htt : t' = t
    · rw [htt, Function.update_self] at h
      rw [← Option.some.inj h]
      exact he
    · rw [Function.update_of_ne htt] at h
      exact .owed h
  · by_cases htt : t' = t
    · rw [htt, Function.update_self] at h
      rw [← Option.some.inj h]
      exact he
    · rw [Function.update_of_ne htt] at h
      exact .given h

/-- A session draws an id for its envelope: nothing is stored under it. -/
theorem Apart.submit (h : Apart s γ) (hlt : s.world.counter < 2 ^ 64) (clock : Clock)
    (sessionId : SessionId) (sequenceNumber : UInt32) (systemId : String) (submitSm : SubmitSm) :
    Apart (s.submit clock sessionId sequenceNumber systemId submitSm) γ := by
  have hnew := MessageId.new_toNat hlt
  refine ⟨h.wf, fun id hid => h.fresh id ?_, fun t id hid => ?_, fun e he => ?_⟩
  · change s.world.counter + 1 ≤ id.val.toNat at hid
    omega
  · have := h.drawn t id hid
    show id.val.toNat < s.world.counter + 1
    omega
  · have hold : ∀ e, Mentioned s γ e →
        Foreign (s.submit clock sessionId sequenceNumber systemId submitSm) γ e.messageId := by
      intro e he
      obtain ⟨hbelow, habsent, hundrawn⟩ := h.foreign e he
      exact ⟨Nat.lt_succ_of_lt hbelow, habsent, hundrawn⟩
    cases he with
    | @published ev p e hmem htakes =>
      rcases List.mem_append.mp hmem with hmem | hmem
      · exact hold _ (.published hmem htakes)
      · rw [List.mem_singleton.mp hmem] at htakes
        -- the new envelope: its id is above everything there is
        have hid : e.messageId = (MessageId.new s.world.counter).1 := by
          cases p with
          | filter => rw [← Option.some.inj htakes]; rfl
          | router => cases htakes
          | forwarder => cases htakes
        rw [hid]
        refine ⟨?_, h.fresh _ (by omega), fun t ht => ?_⟩
        · show _ < s.world.counter + 1
          omega
        · have := h.drawn t _ ht
          omega
    | held hj => exact hold _ (.held hj)
    | owed ho => exact hold _ (.owed ho)
    | given hj => exact hold _ (.given hj)
    | finished hf => exact hold _ (.finished hf)

/-- A body draws an id for a record: it is the id of no envelope. -/
theorem Apart.draw (h : Apart s γ) (hlt : s.world.counter < 2 ^ 64) (t : Tid) :
    Apart { s with world := { s.world with counter := s.world.counter + 1 } }
      (Function.update γ t { γ t with drawn := some (MessageId.new s.world.counter).1 }) := by
  have hnew := MessageId.new_toNat hlt
  refine ⟨h.wf, fun id hid => h.fresh id ?_, fun t' id hid => ?_, fun e he => ?_⟩
  · change s.world.counter + 1 ≤ id.val.toNat at hid
    omega
  · show id.val.toNat < s.world.counter + 1
    by_cases htt : t' = t
    · rw [htt, Function.update_self] at hid
      cases hid
      omega
    · rw [Function.update_of_ne htt] at hid
      have := h.drawn t' id hid
      omega
  · have hmentioned : Mentioned s γ e :=
      mentioned_world (w := { s.world with counter := s.world.counter + 1 }) rfl he
        (owed_update fun _ h => h)
    obtain ⟨hbelow, habsent, hundrawn⟩ := h.foreign e hmentioned
    refine ⟨Nat.lt_succ_of_lt hbelow, habsent, fun t' hid => ?_⟩
    by_cases htt : t' = t
    · rw [htt, Function.update_self] at hid
      have hid' := Option.some.inj hid
      rw [← hid'] at hbelow
      omega
    · rw [Function.update_of_ne htt] at hid
      exact hundrawn t' hid

/-- A body stores a record under the id it has drawn. -/
theorem Apart.store (h : Apart s γ) {t : Tid} {m : StoredMessage} (hdrawn : (γ t).drawn = some m.id)
    (env : StoreEnv) :
    Apart { s with world := { s.world with storage := Storage.store env m s.world.storage } }
      (Function.update γ t { γ t with drawn := none }) := by
  have hbelow := h.drawn t m.id hdrawn
  have hless : ∀ t' id, (Function.update γ t { γ t with drawn := none } t').drawn = some id →
      (γ t').drawn = some id := drawn_update fun _ h => nomatch h
  refine ⟨LawfulStorage.wf_store env m _ h.wf, fun id hid => ?_, fun t' id hid => ?_, fun e he => ?_⟩
  · have hne : id ≠ m.id := by
      rintro rfl
      change s.world.counter ≤ m.id.val.toNat at hid
      omega
    exact LawfulStorage.absent_store env m _ id hne (h.fresh id hid)
  · exact h.drawn t' id (hless t' id hid)
  · have hmentioned : Mentioned s γ e :=
      mentioned_world (w := { s.world with storage := Storage.store env m s.world.storage }) rfl he
        (owed_update fun _ h => h)
    obtain ⟨hlt, habsent, hundrawn⟩ := h.foreign e hmentioned
    refine ⟨hlt, LawfulStorage.absent_store env m _ _ ?_ habsent, fun t' hid => ?_⟩
    · intro hid
      rw [hid] at hundrawn
      exact hundrawn t hdrawn
    · exact hundrawn t' (hless t' _ hid)

/-- An update that keeps the id of the record. -/
theorem Apart.update (h : Apart s γ) (id : MessageId) {f : StoredMessage → StoredMessage}
    (hf : ∀ m, (f m).id = m.id) (env : StoreEnv) :
    Apart { s with world := { s.world with storage := (Storage.update env id f s.world.storage).1 } }
      γ := by
  have habsent : ∀ id', Absent s.world.storage id' →
      Absent (Storage.update env id f s.world.storage).1 id' := fun id' h' =>
    LawfulStorage.absent_update env id f _ id' hf h.wf h'
  refine ⟨LawfulStorage.wf_update env id f _ hf h.wf, fun id' hid => habsent id' (h.fresh id' hid),
    h.drawn, fun e he => ?_⟩
  have hmentioned : Mentioned s γ e :=
    mentioned_world
      (w := { s.world with storage := (Storage.update env id f s.world.storage).1 }) rfl he
      fun _ _ h => h
  obtain ⟨hlt, habs, hundrawn⟩ := h.foreign e hmentioned
  exact ⟨hlt, habsent _ habs, hundrawn⟩

/-- A body publishes an event that mentions nothing but what it owes. -/
theorem Apart.publish (h : Apart s γ) {t : Tid} {g : Work} {ev : Event}
    (htakes : ∀ p e, Processor.takes p ev = some e → (γ t).owed = some e)
    (howed : ∀ e, g.owed = some e → (γ t).owed = some e)
    (hdrawn : ∀ id, g.drawn = some id → (γ t).drawn = some id) :
    Apart (s.publish ev) (Function.update γ t g) :=
  h.mono rfl rfl
    (mentioned_publish (fun p e he => .owed (htakes p e he)) (owed_update howed))
    (drawn_update hdrawn)

end Invariant

/-! ## Every step keeps the ids apart -/

/-- **One call of a body.** -/
theorem call_apart {s : Shared S} {γ : Tid → Work} (t : Tid) (env : Env) (op : Op Event)
    (post : op.Res → Work → Prop) (hpre : keeps op post (γ t))
    (h : s.world.counter ≤ 2 ^ 64 → Apart s γ) :
    ∃ g', post (call env op s).1 g' ∧ ((call env op s).2.world.counter ≤ 2 ^ 64 →
      Apart (call env op s).2 (Function.update γ t g')) := by
  have hsame : Function.update γ t (γ t) = γ := Function.update_eq_self t γ
  cases op with
  | newMessage =>
    refine ⟨_, hpre.2 _, fun hle => ?_⟩
    change s.world.counter + 1 ≤ 2 ^ 64 at hle
    exact (h (by omega)).draw (by omega) t
  | store m => exact ⟨_, hpre.2, fun hle => (h hle).store hpre.1 env.store⟩
  | update id f =>
    refine ⟨γ t, hpre.2 _, fun hle => ?_⟩
    rw [hsame]
    exact (h hle).update id (hpre.1 env.store.clock) env.store
  | tryEmit ev => exact False.elim hpre
  | emit ev =>
    cases ev with
    | messageSubmitRequest e => exact False.elim hpre
    | messageAccepted e =>
      obtain ⟨hg, hpost⟩ := hpre
      refine ⟨_, hpost, fun hle => (h hle).publish (fun p e' he' => ?_) (fun _ h => nomatch h)
        fun _ h => h⟩
      cases p with
      | router => rw [← Option.some.inj he']; exact hg
      | _ => cases he'
    | messageRouted e routeName clusterName fallback =>
      obtain ⟨hg, hpost⟩ := hpre
      refine ⟨_, hpost, fun hle => (h hle).publish (fun p e' he' => ?_) (fun _ h => nomatch h)
        fun _ h => h⟩
      cases p with
      | forwarder => rw [← Option.some.inj he']; exact hg
      | _ => cases he'
    | responseReady r =>
      obtain ⟨e, hg, -, hpost⟩ := hpre
      refine ⟨_, hpost, fun hle => (h hle).publish (fun p e' he' => ?_) (fun _ h => nomatch h)
        fun _ h => h⟩
      cases p <;> cases he'
    | _ =>
      refine ⟨γ t, hpre (), fun hle => (h hle).publish (fun p e' he' => ?_) (fun _ h => h)
        fun _ h => h⟩
      cases p <;> cases he'
  | _ =>
    refine ⟨γ t, hpre _, ?_⟩
    rw [hsame]
    exact h

/-- **The ids stay apart**, whatever happens. -/
theorem preserved_apart :
    Preserved fun (s : Shared S) (γ : Tid → Work) => s.world.counter ≤ 2 ^ 64 → Apart s γ where
  submit s γ clock sessionId sequenceNumber systemId submitSm h hle := by
    change s.world.counter + 1 ≤ 2 ^ 64 at hle
    exact (h (by omega)).submit (by omega) clock sessionId sequenceNumber systemId submitSm
  other s γ ev hflows h hle := by
    refine (h hle).mono rfl rfl (mentioned_publish (fun p e he => ?_) fun _ _ h => h) fun _ _ h => h
    exact nomatch (takes_of_not_flows hflows p).symm.trans he
  skip s γ p ev hev htakes h hle := by
    refine (h hle).mono rfl rfl (fun e he => ?_) fun _ _ h => h
    exact mentioned_of he (fun _ hmem _ _ ht => .published hmem ht) (fun _ h => .held h)
      (fun _ _ h => .owed h) (fun _ _ h => .given h) fun _ _ h => .finished h
  take s γ p ev e t hev htakes ht hfree h hle := by
    refine (h hle).mono rfl rfl (fun e' he => ?_) (drawn_update fun _ h => nomatch h)
    have hgiven := mentioned_given (t := t) (mentioned_next (γ := γ) hev htakes)
    exact mentioned_of he (fun _ hmem _ _ ht => .published hmem ht) (fun _ h => .held h)
      hgiven.1 hgiven.2 fun _ _ h => .finished h
  hold s γ ev job hnone hev htakes h hle := by
    refine (h hle).mono rfl rfl (fun e he => ?_) fun _ _ h => h
    refine mentioned_of he (fun _ hmem _ _ ht => .published hmem ht) (fun job' hjob => ?_)
      (fun _ _ h => .owed h) (fun _ _ h => .given h) fun _ _ h => .finished h
    rw [← Option.some.inj hjob]
    exact mentioned_next hev htakes
  spawn s γ job hheld h hle := by
    refine (h hle).mono rfl rfl (fun e he => ?_) (drawn_update fun _ h => nomatch h)
    have hgiven := mentioned_given (t := .forward s.next) (Mentioned.held (γ := γ) hheld)
    exact mentioned_of he (fun _ hmem _ _ ht => .published hmem ht) (fun _ h => nomatch h)
      hgiven.1 hgiven.2 fun _ _ h => .finished h
  call s γ t env op post hpre h := call_apart t env op post hpre h
  finish s γ t e hjob h hle := by
    refine (h hle).mono rfl rfl (fun e' he => ?_) fun _ _ h => h
    refine mentioned_of he (fun _ hmem _ _ ht => .published hmem ht) (fun _ h => .held h)
      (fun _ _ h => .owed h) (fun _ _ h => .given h) fun t' e' hmem => ?_
    rcases List.mem_append.mp hmem with hold | hnew
    · exact .finished hold
    · cases List.mem_singleton.mp hnew
      exact .given hjob

theorem apart_boot {storage : S} (hnew : LawfulStorage.created storage) :
    Apart (boot storage).state fun _ => .nothing := by
  refine ⟨LawfulStorage.wf_created storage hnew,
    fun id _ => LawfulStorage.absent_created storage id hnew, fun t id h => (nomatch h), fun e he => ?_⟩
  cases he with
  | published hmem _ => cases hmem
  | held h => cases h
  | owed h => cases h
  | given h => cases h
  | finished h => cases h

/-- No envelope that a body has worked on has a record under its id. -/
theorem absent_of_finished {storage : S} (hnew : LawfulStorage.created storage) {concurrency : Nat}
    {labels : List Label} {c : Config S}
    (hrun : run (step concurrency) (boot storage) labels = some c)
    (hle : c.state.world.counter ≤ 2 ^ 64) {t : Tid} {e : MessageEnvelope}
    (he : (t, e) ∈ c.state.finished) : Absent c.state.world.storage e.messageId := by
  obtain ⟨γ, hγ⟩ := preserved_apart.run (fun _ => apart_boot hnew) hrun
  exact ((hγ.inv hle).foreign e (.finished he)).absent

/-! ## Runs in which the filter rejects everything -/

/-- The filter rejects the message. -/
def rejects (submitSm : SubmitSm) : Bool := submitSm.destAddr.isEmpty || submitSm.sourceAddr.isEmpty

/-- The step does not submit a message that the filter accepts. -/
def Label.Rejected : Label → Prop
  | .submit _ _ _ _ submitSm => rejects submitSm = true
  | _ => True

/-- A body that touches no record and hands nothing on. -/
def idles : Spec (Op Event) Op.Res Unit
  | .emit ev, post, g => (∀ p : Processor, p.takes ev = none) ∧ post () g
  | .tryEmit _, _, _ => False
  | .newMessage .., _, _ => False
  | .store _, _, _ => False
  | .update _ _, _, _ => False
  | _, post, g => ∀ r, post r g

theorem idles_rejectMessage (e : MessageEnvelope) (reason : String) (status : UInt32) :
    (FilterProcessor.rejectMessage e reason status).wp idles (fun _ _ => True) () :=
  ⟨fun p => by cases p <;> rfl, fun p => by cases p <;> rfl, trivial⟩

/-- The filter's body for a message it rejects. -/
theorem idles_processMessage {e : MessageEnvelope} (h : rejects e.submitSm = true) :
    (FilterProcessor.processMessage e).wp idles (fun _ _ => True) () := by
  unfold FilterProcessor.processMessage
  split
  · exact idles_rejectMessage e _ _
  · rename_i hdest
    rw [rejects, Bool.or_eq_true] at h
    rw [if_pos (h.resolve_left hdest)]
    exact idles_rejectMessage e _ _

omit [LawfulStorage S] in
/-- What a call of such a body does: the store is as it was, and nothing is handed on. -/
theorem call_idles (env : Env) (op : Op Event) (post : op.Res → Unit → Prop) (h : idles op post ())
    (s : Shared S) :
    post (call env op s).1 () ∧
      ((call env op s).2 = s ∨ ∃ ev, (∀ p : Processor, p.takes ev = none) ∧
        (call env op s).2 = s.publish ev) := by
  cases op with
  | emit ev => exact ⟨h.2, Or.inr ⟨ev, h.1, rfl⟩⟩
  | tryEmit ev => exact False.elim h
  | newMessage => exact False.elim h
  | store m => exact False.elim h
  | update id f => exact False.elim h
  | _ => exact ⟨h _, Or.inl rfl⟩

/-- Only the filter has ever worked, and only on messages it rejects. -/
structure Barred (storage : S) (c : Config S) : Prop where
  storage : c.state.world.storage = storage
  rejected : ∀ ev ∈ c.state.log, ∀ e, Processor.filter.takes ev = some e →
    rejects e.submitSm = true
  ended : ∀ ev ∈ c.state.log,
    Processor.router.takes ev = none ∧ Processor.forwarder.takes ev = none
  filter : (c.task .filter).wp idles (fun _ _ => True) ()
  others : ∀ t, t ≠ .filter → c.task t = .ret ()
  held : c.state.held = none
  finished : ∀ t e, (t, e) ∈ c.state.finished → t = .filter

section Barred

variable {storage : S} {c : Config S}

omit [Storage S] [LawfulStorage S] in
/-- An event that no other stage takes. -/
theorem Barred.publish (h : Barred storage c) (ev : Event)
    (hfilter : ∀ e, Processor.filter.takes ev = some e → rejects e.submitSm = true)
    (hothers : Processor.router.takes ev = none ∧ Processor.forwarder.takes ev = none) :
    (∀ ev' ∈ c.state.log ++ [ev], ∀ e, Processor.filter.takes ev' = some e →
      rejects e.submitSm = true) ∧
    ∀ ev' ∈ c.state.log ++ [ev],
      Processor.router.takes ev' = none ∧ Processor.forwarder.takes ev' = none := by
  refine ⟨fun ev' hmem e he => ?_, fun ev' hmem => ?_⟩
  · rcases List.mem_append.mp hmem with hold | hnew
    · exact h.rejected ev' hold e he
    · rw [List.mem_singleton.mp hnew] at he
      exact hfilter e he
  · rcases List.mem_append.mp hmem with hold | hnew
    · exact h.ended ev' hold
    · rw [List.mem_singleton.mp hnew]
      exact hothers

omit [Storage S] [LawfulStorage S] in
/-- An event that no stage takes at all. -/
theorem Barred.publish_untaken (h : Barred storage c) {ev : Event}
    (htakes : ∀ p : Processor, p.takes ev = none) :
    (∀ ev' ∈ c.state.log ++ [ev], ∀ e, Processor.filter.takes ev' = some e →
      rejects e.submitSm = true) ∧
    ∀ ev' ∈ c.state.log ++ [ev],
      Processor.router.takes ev' = none ∧ Processor.forwarder.takes ev' = none := by
  refine h.publish ev (fun e he => ?_) ⟨htakes .router, htakes .forwarder⟩
  rw [htakes .filter] at he
  cases he

omit [LawfulStorage S] in
/-- An event that is received starts the filter on a message it rejects, or nothing. -/
theorem Barred.recv (h : Barred storage c) {concurrency : Nat} {p : Processor} {c' : Config S}
    (hstep : step concurrency c (.recv p) = some c') : Barred storage c' := by
  simp only [step] at hstep
  split at hstep
  · obtain ⟨ev, hev, rfl⟩ := Option.map_eq_some_iff.mp hstep
    have hmem := List.mem_of_getElem? hev
    have hskip : Barred storage { c with state := c.state.advanceSeen p } :=
      ⟨h.storage, h.rejected, h.ended, h.filter, h.others, h.held, h.finished⟩
    cases p with
    | filter =>
      cases ev with
      | messageSubmitRequest e =>
        refine ⟨h.storage, h.rejected, h.ended, ?_, fun t ht => ?_, h.held, h.finished⟩
        · show (Function.update c.task .filter (FilterProcessor.processMessage e) .filter).wp _ _ _
          rw [Function.update_self]
          exact idles_processMessage (h.rejected _ hmem e rfl)
        · show Function.update c.task .filter (FilterProcessor.processMessage e) t = _
          rw [Function.update_of_ne ht]
          exact h.others t ht
      | _ => exact hskip
    | router =>
      cases ev with
      | messageAccepted e => exact absurd (h.ended _ hmem).1 (Option.some_ne_none e)
      | _ => exact hskip
    | forwarder =>
      cases ev with
      | messageRouted e routeName clusterName fallback =>
        exact absurd (h.ended _ hmem).2 (Option.some_ne_none e)
      | _ => exact hskip
  · cases hstep

omit [LawfulStorage S] in
/-- A call that is answered leaves the store as it was, and hands nothing on. -/
theorem Barred.advance (h : Barred storage c) {concurrency : Nat} {t : Tid} {env : Env} {c' : Config S}
    (hstep : step concurrency c (.advance t env) = some c') : Barred storage c' := by
  obtain ⟨c₁, hadv, rfl⟩ := Option.map_eq_some_iff.mp hstep
  obtain ⟨op, k, htask, rfl⟩ := Pool.advance_eq_some.mp hadv
  -- only the filter has calls to make
  have ht : t = .filter := by
    by_contra hne
    rw [h.others t hne] at htask
    cases htask
  subst ht
  have hfilter := h.filter
  rw [htask] at hfilter
  obtain ⟨hpost, hstate⟩ := call_idles env op _ hfilter c.state
  have hothers : ∀ t, t ≠ .filter →
      Function.update c.task .filter (k (call env op c.state).1) t = .ret () := by
    intro t ht
    rw [Function.update_of_ne ht]
    exact h.others t ht
  have hself : (Function.update c.task .filter (k (call env op c.state).1) .filter).wp idles
      (fun _ _ => True) () := by
    rw [Function.update_self]
    exact hpost
  have hnext : Barred storage ⟨(call env op c.state).2,
      Function.update c.task .filter (k (call env op c.state).1)⟩ := by
    rcases hstate with heq | ⟨ev, htakes, heq⟩
    · rw [heq]
      exact ⟨h.storage, h.rejected, h.ended, hself, hothers, h.held, h.finished⟩
    · rw [heq]
      obtain ⟨hrejected, hended⟩ := h.publish_untaken htakes
      exact ⟨h.storage, hrejected, hended, hself, hothers, h.held, h.finished⟩
  unfold bookkeep
  split
  · refine ⟨hnext.storage, hnext.rejected, hnext.ended, hnext.filter, hnext.others, hnext.held,
      fun t e hmem => ?_⟩
    rcases List.mem_append.mp hmem with hold | hnew
    · exact hnext.finished t e hold
    · cases List.mem_singleton.mp hnew
      rfl
  · exact hnext

omit [LawfulStorage S] in
/-- **The step lemma** of these runs. -/
theorem step_barred (storage : S) (concurrency : Nat) (c : Config S) (a : Label) (c' : Config S)
    (h : Barred storage c) (ha : a.Rejected) (hstep : step concurrency c a = some c') :
    Barred storage c' := by
  cases a with
  | submit clock sessionId sequenceNumber systemId submitSm =>
    obtain rfl := Option.some.inj hstep
    obtain ⟨hrejected, hended⟩ := h.publish (.messageSubmitRequest (MessageEnvelope.new clock
      c.state.world.counter sessionId sequenceNumber systemId submitSm).1)
      (fun e he => by rw [← Option.some.inj he]; exact ha) ⟨rfl, rfl⟩
    exact ⟨h.storage, hrejected, hended, h.filter, h.others, h.held, h.finished⟩
  | other ev =>
    simp only [step] at hstep
    split at hstep
    · cases hstep
    · rename_i hflows
      obtain rfl := Option.some.inj hstep
      have htakes := takes_of_not_flows (Bool.eq_false_iff.mpr hflows)
      obtain ⟨hrejected, hended⟩ := h.publish_untaken htakes
      exact ⟨h.storage, hrejected, hended, h.filter, h.others, h.held, h.finished⟩
  | recv p => exact h.recv hstep
  | spawn =>
    simp only [step] at hstep
    split at hstep
    · rw [h.held] at hstep
      cases hstep
    · cases hstep
  | advance t env => exact h.advance hstep

/-- Nothing has been stored, so nothing is missing. -/
theorem identity_of_barred (hnew : LawfulStorage.created storage) (h : Barred storage c) :
    Identity c := by
  refine ⟨fun e he => ?_, fun n e he => ?_, fun _ env id m hget => ?_⟩
  · cases h.finished _ _ he
  · cases h.finished _ _ he
  · rw [h.storage, LawfulStorage.absent_created storage id hnew env] at hget
    cases hget

end Barred

/-- **The identity of messages holds until one is routed.**  Along every run in which the filter
    rejects every message, over any lawful storage, the identity holds; and in every state in which
    `route_message` has run for some envelope, it does not (as long as the ids drawn are different). -/
theorem identity_until_routed (storage : S) (hnew : LawfulStorage.created storage) (concurrency : Nat)
    (labels : List Label) (c : Config S)
    (hrun : run (step concurrency) (boot storage) labels = some c) :
    ((∀ a ∈ labels, a.Rejected) → Identity c) ∧
      (c.state.world.counter ≤ 2 ^ 64 → ∀ e, (.router, e) ∈ c.state.finished → ¬ Identity c) := by
  refine ⟨fun hrejected => ?_, fun hle e he hidentity => ?_⟩
  · have hboot : Barred storage (boot storage) :=
      ⟨rfl, fun ev hmem => (nomatch hmem), fun ev hmem => (nomatch hmem), trivial, fun _ _ => rfl, rfl,
        fun t e hmem => (nomatch hmem)⟩
    exact identity_of_barred hnew
      (meets_inv (step_barred storage concurrency) hboot (meets_of_forall hrejected _) hrun)
  · obtain ⟨m, hget, -⟩ := hidentity.stored e he ⟨⟨0, 0⟩, .listed⟩
    have habsent := absent_of_finished hnew hrun hle he
    exact nomatch (habsent ⟨⟨0, 0⟩, .listed⟩).symm.trans hget

/-- A message without a destination is rejected, and the identity holds. -/
theorem identity_of_rejection :
    ∃ c, run (step 1) (boot (MemoryStorage.withConfig ⟨1000, 512, 10⟩))
        (sampleSubmit "+258841234567" "" :: reads .filter 1 ++ calls .filter 2) = some c ∧
      c.state.finished.length = 1 ∧ Identity c := by
  have hnew : LawfulStorage.created (MemoryStorage.withConfig ⟨1000, 512, 10⟩) := ⟨_, rfl⟩
  refine ⟨_, rfl, rfl, ?_⟩
  refine (identity_until_routed (MemoryStorage.withConfig ⟨1000, 512, 10⟩) hnew 1
    (sampleSubmit "+258841234567" "" :: reads .filter 1 ++ calls .filter 2) _ rfl).1 ?_
  intro a ha
  rcases List.mem_cons.mp ha with rfl | ha
  · rfl
  · rcases List.mem_append.mp ha with ha | ha
    · rw [List.eq_of_mem_replicate ha]
      trivial
    · rw [List.eq_of_mem_replicate ha]
      trivial

/-- A message that is delivered: `route_message` has run, and there is no record under the id of the
    envelope. -/
theorem identity_fails_on_delivery :
    ¬ ∀ (labels : List Label) (c : Config MemoryStorage),
      run (step 1) (boot (MemoryStorage.withConfig ⟨1000, 512, 10⟩)) labels = some c → Identity c := by
  intro hall
  have hexists : ∃ c e, run (step 1) (boot (MemoryStorage.withConfig ⟨1000, 512, 10⟩)) delivery = some c ∧
      (.router, e) ∈ c.state.finished ∧ c.state.world.storage.get e.messageId = none :=
    ⟨_, _, rfl, .tail _ (.head _), rfl⟩
  obtain ⟨c, e, hrun, he, hnone⟩ := hexists
  obtain ⟨m, hget, -⟩ := (hall delivery c hrun).stored e he ⟨⟨0, 0⟩, .listed⟩
  exact nomatch hnone.symm.trans hget

end Smppd.Pipeline
