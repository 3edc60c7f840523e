/-
  RESENDING: what a retry puts on the wire, against what the client submitted.

  The first attempt sends the `submit_sm` as it came.  The record keeps six of its fields, and
  `build_submit_sm` makes a `submit_sm` from the record in which every other field has a default: no type
  of number, no service type, no times, no TLVs.  So the two are the same message exactly when the
  submitted one had those defaults already (`Plain`).

  That the record still says what was kept when the retry looks rests on every task of the gateway: no
  update any of them makes touches the payload (`Traced.keeps`), and so no step does (`step_bears`).

  * `build_eq_iff` — on a record with what `process_request` keeps;
  * `sends_submitted`, `stores_kept`, `resends_loaded` — what the two bodies send and store;
  * `retries_resend_iff` — over every run of the gateway, for both back ends.
-/
import Smppd.Store.Payload
import Smppd.Forwarder.ReceiptIds

set_option linter.unusedVariables false

namespace Smppd.Forwarder

open Smppd.Store Smppd.Gateway Prog Machine

variable {D S : Type}

/-! ## There and back -/

/-- What `process_request` keeps of a PDU. -/
def kept (s : SubmitSm) : Payload :=
  ⟨s.sourceAddr, s.destAddr, s.shortMessage, s.dataCoding, s.esmClass, s.registeredDelivery, none⟩

/-- The fields that are not kept are the ones `build_submit_sm` fills in. -/
structure Plain (s : SubmitSm) : Prop where
  serviceType : s.serviceType = ""
  sourceAddrTon : s.sourceAddrTon = 0
  sourceAddrNpi : s.sourceAddrNpi = 0
  destAddrTon : s.destAddrTon = 0
  destAddrNpi : s.destAddrNpi = 0
  protocolId : s.protocolId = 0
  priorityFlag : s.priorityFlag = 0
  scheduleDeliveryTime : s.scheduleDeliveryTime = ""
  validityPeriod : s.validityPeriod = ""
  replaceIfPresentFlag : s.replaceIfPresentFlag = 0
  smDefaultMsgId : s.smDefaultMsgId = 0
  tlvs : s.tlvs = []

/-- **The round trip.** -/
theorem build_eq_iff {m : StoredMessage} {s : SubmitSm} (h : m.payload = kept s) :
    buildSubmitSm m = s ↔ Plain s := by
  have hservice : m.serviceType = none := congrArg Payload.serviceType h
  constructor
  · rintro rfl
    refine ⟨?_, rfl, rfl, rfl, rfl, rfl, rfl, rfl, rfl, rfl, rfl, rfl⟩
    show m.serviceType.getD "" = ""
    rw [hservice]
    rfl
  · intro hplain
    have hsource : m.source = s.sourceAddr := congrArg Payload.source h
    have hdest : m.destination = s.destAddr := congrArg Payload.destination h
    have hshort : m.shortMessage = s.shortMessage := congrArg Payload.shortMessage h
    have hcoding : m.dataCoding = s.dataCoding := congrArg Payload.dataCoding h
    have hclass : m.esmClass = s.esmClass := congrArg Payload.esmClass h
    have hreceipt : m.registeredDelivery = s.registeredDelivery := congrArg Payload.registeredDelivery h
    unfold buildSubmitSm
    rw [hservice, hsource, hdest, hshort, hcoding, hclass, hreceipt]
    obtain ⟨h₁, h₂, h₃, h₄, h₅, h₆, h₇, h₈, h₉, h₁₀, h₁₁, h₁₂⟩ := hplain
    cases s
    subst h₁ h₂ h₃ h₄ h₅ h₆ h₇ h₈ h₉ h₁₀ h₁₁ h₁₂
    rfl

/-! ## The closures the bodies use -/

theorem keepsPayload_accepted (name upstreamId : String) (clock : Clock) :
    KeepsPayload (accepted name upstreamId clock) := ⟨fun _ => rfl, fun _ => rfl⟩

theorem keepsPayload_markFailed (clock : Clock) (code : Option UInt32) (error : String) :
    KeepsPayload (StoredMessage.markFailed clock code error) := ⟨fun _ => rfl, fun _ => rfl⟩

theorem keepsPayload_markRetry (clock : Clock) (delay : Duration) (code : Option UInt32) (error : String) :
    KeepsPayload (StoredMessage.markRetry clock delay code error) := ⟨fun _ => rfl, fun _ => rfl⟩

theorem keepsPayload_markExpired (clock : Clock) : KeepsPayload (StoredMessage.markExpired clock) :=
  ⟨fun _ => rfl, fun _ => rfl⟩

theorem keepsPayload_recordResponse (clock : Clock) (status : UInt32) (messageId : Option String)
    (latency : UInt64) : KeepsPayload (StoredMessage.recordResponse clock status messageId latency) :=
  ⟨fun _ => rfl, fun _ => rfl⟩

theorem keepsPayload_settle (dlr : DeliveryReceipt) (clock : Clock) : KeepsPayload (settle dlr clock) := by
  refine ⟨settle_id dlr clock, fun m => ?_⟩
  unfold settle
  split
  · rfl
  · split <;> rfl

/-! ## What a request sends and stores -/

/-- What a request task for the PDU does, with the message it has drawn as the ghost. -/
def requestSpec (s : SubmitSm) : Spec (Op (Output D)) Op.Res (Option StoredMessage)
  | .newMessage source destination shortMessage _ _, post, _ =>
    source = s.sourceAddr ∧ destination = s.destAddr ∧ shortMessage = s.shortMessage ∧ ∀ m, post m (some m)
  | .store m, post, g =>
    (∃ drawn, g = some drawn ∧ m.payload =
      { drawn.payload with
        dataCoding := s.dataCoding
        esmClass := s.esmClass
        registeredDelivery := s.registeredDelivery }) ∧ post () g
  | .sendPdu _ pdu, post, g => pdu = s ∧ ∀ r, post r g
  | .update _ f, post, g => (∀ clock, KeepsPayload (f clock)) ∧ ∀ b, post b g
  | _, post, g => ∀ r, post r g

/-- An attempt with the PDU itself is what the specification asks for. -/
theorem attempts_submitted (s : SubmitSm) (g : Option StoredMessage) :
    Attempts (requestSpec s : Spec (Op (Output D)) _ _) s g :=
  ⟨fun _ _ h => h, fun _ _ h => h, fun _ _ h => ⟨rfl, h⟩⟩

theorem records_submitted (s : SubmitSm) (id : MessageId) (g : Option StoredMessage) :
    Records (requestSpec s : Spec (Op (Output D)) _ _) id g :=
  fun _ _ _ _ h => ⟨fun clock => keepsPayload_recordResponse clock _ _ _, h⟩

theorem wp_submitted (request : ForwardRequest) :
    (processRequest request : Body (Output D) Unit).wp (requestSpec request.submitSm)
      (fun _ _ => True) none := by
  unfold processRequest
  refine ⟨rfl, rfl, rfl, fun drawn => ⟨⟨drawn, rfl, rfl⟩, fun route => ?_⟩⟩
  cases route with
  | none => exact ⟨fun clock => keepsPayload_markFailed clock _ _, fun _ _ => trivial⟩
  | some route =>
    show Prog.wp _ (tryClusters drawn.id _ _ _ >>= _) _ _
    rw [wp_bind]
    refine wp_tryClusters (attempts_submitted _ _) (records_submitted _ _ _) _ _ fun r => ?_
    cases r with
    | ok reached => exact ⟨keepsPayload_accepted _ _, fun _ _ => trivial⟩
    | error lastError =>
      intro current clock
      dsimp only [Prog.bind]
      cases (current.map fun m => m.canRetry clock).getD false with
      | true => exact ⟨fun clock => keepsPayload_markRetry clock _ _ _, fun _ _ => trivial⟩
      | false => exact ⟨fun clock => keepsPayload_markFailed clock _ _, fun _ _ => trivial⟩

/-- The message a request task has drawn is the answer of the call that draws one. -/
def Drawn (s : SubmitSm) (calls : List (Call D)) (g : Option StoredMessage) : Prop :=
  ∀ drawn, g = some drawn → ∃ systemId sequenceNumber,
    (⟨.newMessage s.sourceAddr s.destAddr s.shortMessage systemId sequenceNumber, drawn⟩ : Call D) ∈ calls

theorem Drawn.other {s : SubmitSm} {calls : List (Call D)} {g : Option StoredMessage} (h : Drawn s calls g)
    (call : Call D) : Drawn s (calls ++ [call]) g := by
  intro drawn hg
  obtain ⟨systemId, sequenceNumber, hmem⟩ := h drawn hg
  exact ⟨systemId, sequenceNumber, List.mem_append_left _ hmem⟩

theorem drawn_next (s : SubmitSm) (calls : List (Call D)) (g : Option StoredMessage) (op : Op (Output D))
    (next : op.Res → Option StoredMessage → Prop) (r : op.Res) (hdrawn : Drawn s calls g)
    (hspec : requestSpec s op next g) : ∃ g', next r g' ∧ Drawn s (calls ++ [⟨op, r⟩]) g' := by
  cases op with
  | newMessage source destination shortMessage systemId sequenceNumber =>
    obtain ⟨rfl, rfl, rfl, hnext⟩ := hspec
    refine ⟨some r, hnext r, fun drawn hg => ⟨systemId, sequenceNumber, ?_⟩⟩
    rw [← Option.some.inj hg]
    exact List.mem_append_right _ List.mem_cons_self
  | store m => exact ⟨g, hspec.2, hdrawn.other _⟩
  | sendPdu name pdu => exact ⟨g, hspec.2 r, hdrawn.other _⟩
  | update id f => exact ⟨g, hspec.2 r, hdrawn.other _⟩
  | _ => exact ⟨g, hspec r, hdrawn.other _⟩

section Reached

variable {request : ForwardRequest} {calls : List (Call D)}

theorem request_reaches {p : Body (Output D) Unit} (hreach : Reaches (processRequest request) calls p) :
    ∃ g, Drawn request.submitSm calls g ∧ p.wp (requestSpec request.submitSm) (fun _ _ => True) g :=
  hreach.wp (drawn_next request.submitSm) (by intro drawn hg; cases hg) (wp_submitted request)

/-- **A first attempt sends what was submitted.** -/
theorem sends_submitted {name : String} {pdu : SubmitSm} {k : Reply → Body (Output D) Unit}
    (hreach : Reaches (processRequest request) calls (.call (.sendPdu name pdu) k)) :
    pdu = request.submitSm := by
  obtain ⟨g, -, hsend, -⟩ := request_reaches hreach
  exact hsend

/-- **What is stored is what is kept**, when the message was drawn as `new` draws it. -/
theorem stores_kept {m : StoredMessage} {k : Unit → Body (Output D) Unit}
    (hreach : Reaches (processRequest request) calls (.call (.store m) k))
    (hnew : ∀ source destination shortMessage systemId sequenceNumber drawn,
      (⟨.newMessage source destination shortMessage systemId sequenceNumber, drawn⟩ : Call D) ∈ calls →
        drawn.payload = ⟨source, destination, shortMessage, 0, 0, 0, none⟩) :
    m.payload = kept request.submitSm := by
  obtain ⟨g, hdrawn, ⟨drawn, hg, hm⟩, -⟩ := request_reaches hreach
  obtain ⟨systemId, sequenceNumber, hmem⟩ := hdrawn drawn hg
  rw [hm, hnew _ _ _ _ _ _ hmem]
  rfl

end Reached

/-! ## What a retry sends -/

/-- The last message that was loaded, as it was found. -/
def loaded (calls : List (Call D)) : Option (MessageId × Option StoredMessage) :=
  calls.foldl (fun g call => match call with
    | ⟨.get id, r⟩ => some (id, r)
    | _ => g) none

theorem loaded_concat (calls : List (Call D)) (call : Call D) :
    loaded (calls ++ [call]) = match call with
      | ⟨.get id, r⟩ => some (id, r)
      | _ => loaded calls :=
  List.foldl_append

theorem mem_of_loaded {calls : List (Call D)} {id : MessageId} {r : Option StoredMessage}
    (h : loaded calls = some (id, r)) : (⟨.get id, r⟩ : Call D) ∈ calls := by
  induction calls using List.reverseRecOn with
  | nil => cases h
  | append_singleton calls call ih =>
    rw [loaded_concat] at h
    split at h
    · cases h
      exact List.mem_append_right _ List.mem_cons_self
    · exact List.mem_append_left _ (ih h)

/-- What the retry task does, with the last message it has loaded as the ghost. -/
def resendSpec : Spec (Op (Output D)) Op.Res (Option (MessageId × Option StoredMessage))
  | .get id, post, _ => ∀ r, post r (some (id, r))
  | .sendPdu _ pdu, post, g => (∃ id m, g = some (id, some m) ∧ pdu = buildSubmitSm m) ∧ ∀ r, post r g
  | .update _ f, post, g => (∀ clock, KeepsPayload (f clock)) ∧ ∀ b, post b g
  | _, post, g => ∀ r, post r g

/-- An attempt with what is built from the message loaded last is what the specification asks for. -/
theorem attempts_loaded (id : MessageId) (msg : StoredMessage) :
    Attempts (resendSpec : Spec (Op (Output D)) _ _) (buildSubmitSm msg) (some (id, some msg)) :=
  ⟨fun _ _ h => h, fun _ _ h => h, fun _ _ h => ⟨⟨id, msg, rfl, rfl⟩, h⟩⟩

/-- One pass ends with the message it has loaded as the last one. -/
theorem wp_retryMessage_loaded (config : RetryConfig) {id : MessageId}
    {post : Unit → Option (MessageId × Option StoredMessage) → Prop} (hpost : ∀ r, post () (some (id, r)))
    (g : Option (MessageId × Option StoredMessage)) :
    (retryMessage config id : Body (Output D) Unit).wp resendSpec post g := by
  unfold retryMessage
  intro r
  cases r with
  | none => exact hpost _
  | some current =>
    show Prog.wp _ (if current.state ≠ .retrying then _ else _) post _
    split
    · exact hpost _
    · split
      · exact ⟨fun clock => keepsPayload_markFailed clock _ _, fun _ => hpost _⟩
      · intro clock
        dsimp only [Prog.bind]
        cases current.isExpired clock with
        | true => exact ⟨fun clock => keepsPayload_markExpired clock, fun _ => hpost _⟩
        | false =>
          intro route
          cases route with
          | none => exact ⟨fun clock => keepsPayload_markFailed clock _ _, fun _ => hpost _⟩
          | some route =>
            show Prog.wp _ (retryClusters current _ >>= _) _ _
            rw [wp_bind]
            refine wp_retryClusters (attempts_loaded id current) _ fun reached => ?_
            cases reached with
            | some reached => exact ⟨keepsPayload_accepted _ _, fun _ => hpost _⟩
            | none => exact ⟨fun clock => keepsPayload_markRetry clock _ _ _, fun _ => hpost _⟩

theorem wp_processRetries_loaded (config : RetryConfig) (g : Option (MessageId × Option StoredMessage)) :
    (processRetries config : Body (Output D) Unit).wp resendSpec (fun _ _ => True) g := by
  unfold processRetries
  intro ready
  show Prog.wp _ (retryAll config ready) _ _
  induction ready generalizing g with
  | nil => trivial
  | cons msg rest ih =>
    unfold retryAll
    rw [wp_bind]
    exact wp_retryMessage_loaded config (fun r => ih _) g

theorem loaded_next (calls : List (Call D)) (g : Option (MessageId × Option StoredMessage))
    (op : Op (Output D)) (next : op.Res → Option (MessageId × Option StoredMessage) → Prop) (r : op.Res)
    (hloaded : loaded calls = g) (hspec : resendSpec op next g) :
    ∃ g', next r g' ∧ loaded (calls ++ [⟨op, r⟩]) = g' := by
  rw [loaded_concat]
  cases op with
  | get id => exact ⟨some (id, r), hspec r, rfl⟩
  | sendPdu name pdu => exact ⟨g, hspec.2 r, hloaded⟩
  | update id f => exact ⟨g, hspec.2 r, hloaded⟩
  | _ => exact ⟨g, hspec r, hloaded⟩

theorem retry_reaches {config : RetryConfig} {calls : List (Call D)} {p : Body (Output D) Unit}
    (hreach : Reaches (processRetries config) calls p) :
    p.wp resendSpec (fun _ _ => True) (loaded calls) := by
  obtain ⟨g, rfl, hp⟩ := hreach.wp (R := fun calls g => loaded calls = g) loaded_next rfl
    (wp_processRetries_loaded config none)
  exact hp

/-- **A retry sends what `build_submit_sm` makes of the message it has loaded.** -/
theorem resends_loaded {config : RetryConfig} {calls : List (Call D)} {name : String} {pdu : SubmitSm}
    {k : Reply → Body (Output D) Unit}
    (hreach : Reaches (processRetries config) calls (.call (.sendPdu name pdu) k)) :
    ∃ id m, loaded calls = some (id, some m) ∧ pdu = buildSubmitSm m :=
  (retry_reaches hreach).1

/-! ## What a receipt writes -/

/-- What the receipt task does to records. -/
def settleSpec : Spec (Op (Output D)) Op.Res Unit
  | .update _ f, post, g => (∀ clock, KeepsPayload (f clock)) ∧ ∀ b, post b g
  | _, post, g => ∀ r, post r g

theorem wp_processDlr_settles (codec : DlrCodec D) (event : DlrEvent D) :
    (processDlr codec event).wp settleSpec (fun _ _ => True) () := by
  have hforward : ∀ (systemId : String) (deliver : D),
      (forwardToClient systemId deliver).wp settleSpec (fun _ _ => True) () := by
    intro systemId deliver
    unfold forwardToClient
    intro session
    cases session with
    | false => trivial
    | true => exact fun _ => trivial
  have hmessage : ∀ (dlr : DeliveryReceipt) (m : StoredMessage), Prog.wp settleSpec
      (if dlr.status.isFinal = true then
        .call (.update m.id (settle dlr)) fun _ => forwardToClient m.systemId event.deliverSm
      else forwardToClient m.systemId event.deliverSm) (fun _ _ => True) () := by
    intro dlr m
    split
    · exact ⟨keepsPayload_settle dlr, fun _ => hforward _ _⟩
    · exact hforward _ _
  unfold processDlr
  cases codec.parseDlr event.deliverSm with
  | none => trivial
  | some dlr =>
    simp only [wp_bind]
    unfold findMessageBySmscId
    simp only [request_bind]
    intro inFlight
    cases hfind : inFlight.find? (carries dlr.smscMessageId) with
    | some m =>
      simp only [hfind, pure_eq, wp_ret]
      exact hmessage dlr m
    | none =>
      simp only [hfind]
      intro retrying
      simp only [pure_eq, wp_ret]
      cases retrying.find? (carries dlr.smscMessageId) with
      | some m => exact hmessage dlr m
      | none => trivial

/-! ## The payload of a record, over runs -/

namespace Traffic

variable {config : RetryConfig} {codec : DlrCodec D}

/-- **No update of any task touches a payload.** -/
theorem Traced.keeps {c : Traffic S D} (h : Traced config codec c) {t : Tid} {id : MessageId}
    {f : Clock → StoredMessage → StoredMessage} {k : Bool → Body (Output D) Unit}
    (htask : c.task t = .call (.update id f) k) (clock : Clock) : KeepsPayload (f clock) := by
  rcases h t with hidle | ⟨p, hp, hreach⟩
  · rw [htask] at hidle
    cases hidle
  · rw [htask] at hreach
    cases t with
    | request n =>
      obtain ⟨request, rfl⟩ := hp
      obtain ⟨g, -, hkeeps, -⟩ := request_reaches hreach
      exact hkeeps clock
    | retry =>
      obtain rfl := hp
      exact (retry_reaches hreach).1 clock
    | dlr =>
      obtain ⟨event, rfl⟩ := hp
      obtain ⟨g, -, hkeeps, -⟩ := hreach.wp (R := fun _ _ => True) (fun calls g op next r _ hspec => by
        cases op with
        | update id f => exact ⟨g, hspec.2 r, trivial⟩
        | _ => exact ⟨g, hspec r, trivial⟩) trivial (wp_processDlr_settles codec event)
      exact hkeeps clock

variable [Storage S]

/-- A call in the list of a task after it has made one more. -/
theorem mem_calls_advance {calls : Tid → List (Call D)} {t t' : Tid} {made call : Call D}
    (h : call ∈ Function.update calls t (calls t ++ [made]) t') : call ∈ calls t' ∨ t' = t ∧ call = made := by
  by_cases ht : t' = t
  · subst ht
    rw [Function.update_self] at h
    rcases List.mem_append.mp h with hbefore | hlast
    · exact Or.inl hbefore
    · exact Or.inr ⟨rfl, List.mem_singleton.mp hlast⟩
  · rw [Function.update_of_ne ht] at h
    exact Or.inl h

theorem mem_calls_launch {calls : Tid → List (Call D)} {t t' : Tid} {call : Call D}
    (h : call ∈ Function.update calls t [] t') : call ∈ calls t' := by
  by_cases ht : t' = t
  · subst ht
    rw [Function.update_self] at h
    cases h
  · rw [Function.update_of_ne ht] at h
    exact h

/-- Every call a task has made was answered by the gateway. -/
def Answered (c : Traffic S D) : Prop :=
  ∀ t call, call ∈ c.calls t → ∃ env, ∃ w : World S (Output D), (handle env call.1 w).1 = call.2

theorem step_answered (c : Traffic S D) (a : Move S D) (c' : Traffic S D) (h : c.Answered)
    (hstep : step config codec c a = some c') : c'.Answered := by
  intro t call hcall
  rcases step_cases hstep with ⟨t', p, -, rfl⟩ | ⟨t', env, op, k, -, -, rfl⟩ | ⟨storage, -, rfl⟩
  · exact h t call (mem_calls_launch hcall)
  · rcases mem_calls_advance hcall with hbefore | ⟨-, rfl⟩
    · exact h t call hbefore
    · exact ⟨env, c.world, rfl⟩
  · exact h t call hcall

/-- A message that was drawn has the payload `new` gives it. -/
theorem Answered.drawn {c : Traffic S D} (h : c.Answered) {t : Tid} {source destination systemId : String}
    {shortMessage : List UInt8} {sequenceNumber : UInt32} {drawn : StoredMessage}
    (hmem : (⟨.newMessage source destination shortMessage systemId sequenceNumber, drawn⟩ : Call D) ∈ c.calls t) :
    drawn.payload = ⟨source, destination, shortMessage, 0, 0, 0, none⟩ := by
  obtain ⟨env, w, hanswer⟩ := h t _ hmem
  change (handle env (.newMessage _ _ _ _ _) w).1 = drawn at hanswer
  rw [← hanswer]
  rfl

variable [PayloadStorage S]

/-- The storage changes by the calls of the tasks and by maintenance. -/
def Tended (c : Traffic S D) : Move S D → Prop
  | .elsewhere storage => PayloadStorage.Maintains c.world.storage storage
  | _ => True

section Call

variable {w : World S (Output D)} {op : Op (Output D)} (env : Env)
  (hupdate : ∀ id f, op = .update id f → ∀ clock, KeepsPayload (f clock))

include hupdate

/-- A call leaves the storage in shape. -/
theorem handle_good (hgood : PayloadStorage.Good w.storage) :
    PayloadStorage.Good (handle env op w).2.storage := by
  cases op with
  | store m => exact PayloadStorage.good_store env.store m _ hgood
  | update id f => exact PayloadStorage.good_update env.store id _ _ (hupdate id f rfl _) hgood
  | _ => exact hgood

/-- It leaves the payload under an id, if it does not store another message there. -/
theorem handle_bears {id : MessageId} {p : Payload} (hgood : PayloadStorage.Good w.storage)
    (hother : ∀ m, op = .store m → id ≠ m.id) (hbears : Bears p id w.storage) :
    Bears p id (handle env op w).2.storage := by
  cases op with
  | store m => exact PayloadStorage.bears_store env.store m _ p id (hother m rfl) hbears
  | update id' f =>
    exact PayloadStorage.bears_update env.store id' _ _ p id (hupdate id' f rfl _) hgood hbears
  | _ => exact hbears

end Call

/-- The gateway in working order. -/
structure Whole (config : RetryConfig) (codec : DlrCodec D) (c : Traffic S D) : Prop where
  traced : c.Traced config codec
  answered : c.Answered
  good : PayloadStorage.Good c.world.storage

theorem whole_start {w : World S (Output D)} (hgood : PayloadStorage.Good w.storage) :
    Whole config codec (start w) :=
  ⟨traced_start w, fun t call hcall => absurd hcall List.not_mem_nil, hgood⟩

theorem step_whole (c : Traffic S D) (a : Move S D) (c' : Traffic S D) (h : Whole config codec c)
    (hok : c.Tended a) (hstep : step config codec c a = some c') : Whole config codec c' := by
  refine ⟨step_traced c a c' h.traced hstep, step_answered c a c' h.answered hstep, ?_⟩
  rcases step_cases hstep with ⟨t, p, -, rfl⟩ | ⟨t, env, op, k, rfl, htask, rfl⟩ | ⟨storage, rfl, rfl⟩
  · exact h.good
  · refine handle_good env ?_ h.good
    rintro id f rfl clock
    exact h.traced.keeps htask clock
  · exact PayloadStorage.good_maintains _ _ hok h.good

/-- The record under the id stays the one of its message: it is maintained, and nobody stores another
    message there. -/
def Leaves (id : MessageId) (c : Traffic S D) (a : Move S D) : Prop :=
  c.Tended a ∧ match a with
    | .advance t _ => match c.task t with
      | .call (.store m) _ => id ≠ m.id
      | _ => True
    | _ => True

/-- The payload is all there is to find under the id, and all the retry task has found. -/
structure Bearing (id : MessageId) (p : Payload) (c : Traffic S D) : Prop where
  stored : Bears p id c.world.storage
  found : ∀ m, (⟨.get id, some m⟩ : Call D) ∈ c.calls .retry → m.payload = p

/-- **The step lemma.** -/
theorem step_bears {id : MessageId} {p : Payload} (c : Traffic S D) (a : Move S D) (c' : Traffic S D)
    (h : Whole config codec c ∧ c.Bearing id p) (hok : c.Leaves id a)
    (hstep : step config codec c a = some c') : Whole config codec c' ∧ c'.Bearing id p := by
  obtain ⟨hwhole, hbearing⟩ := h
  refine ⟨step_whole c a c' hwhole hok.1 hstep, ?_⟩
  rcases step_cases hstep with ⟨t, body, -, rfl⟩ | ⟨t, env, op, k, rfl, htask, rfl⟩ | ⟨storage, rfl, rfl⟩
  · exact ⟨hbearing.stored, fun m hm => hbearing.found m (mem_calls_launch hm)⟩
  · refine ⟨handle_bears env ?_ hwhole.good ?_ hbearing.stored, fun m hm => ?_⟩
    · rintro id' f rfl clock
      exact hwhole.traced.keeps htask clock
    · rintro m rfl
      have hother := hok.2
      simp only [htask] at hother
      exact hother
    · rcases mem_calls_advance hm with hbefore | ⟨-, hmade⟩
      · exact hbearing.found m hbefore
      · -- the retry task has just loaded the message
        obtain ⟨rfl, hanswer⟩ := Sigma.mk.inj_iff.mp hmade
        exact hbearing.stored env.store m (eq_of_heq hanswer).symm
  · exact ⟨PayloadStorage.bears_maintains _ _ p id hok.1 hwhole.good hbearing.stored, hbearing.found⟩

/-- The request task is about to store its message. -/
def Stores (c : Traffic S D) (n : Nat) (request : ForwardRequest) (m : StoredMessage) : Prop :=
  ∃ k, c.task (.request n) = .call (.store m) k ∧
    Reaches (processRequest request) (c.calls (.request n)) (.call (.store m) k)

/-- The retry task is about to send the PDU for the message it has loaded under the id. -/
def Resends (c : Traffic S D) (id : MessageId) (pdu : SubmitSm) : Prop :=
  ∃ name k current, c.task .retry = .call (.sendPdu name pdu) k ∧
    loaded (c.calls .retry) = some (id, some current)

/-- Storing the message puts what is kept of its PDU under its id. -/
theorem Whole.bearing {c c' : Traffic S D} (h : Whole config codec c) {n : Nat} {request : ForwardRequest}
    {m : StoredMessage} (hstores : c.Stores n request m) {env : Env}
    (hstep : step config codec c (.advance (.request n) env) = some c')
    (hunseen : ∀ r, (⟨.get m.id, r⟩ : Call D) ∉ c'.calls .retry) :
    c'.Bearing m.id (kept request.submitSm) := by
  obtain ⟨k, htask, hreach⟩ := hstores
  refine ⟨?_, fun m' hm' => absurd hm' (hunseen _)⟩
  have hpayload := stores_kept hreach fun source destination shortMessage systemId sequenceNumber drawn hmem =>
    h.answered.drawn hmem
  have hstep' : c.advance (.request n) env = some c' := hstep
  unfold Traffic.advance at hstep'
  rw [htask] at hstep'
  obtain rfl := Option.some.inj hstep'
  rw [← hpayload]
  exact PayloadStorage.bears_store_self env.store m c.world.storage

/-- What the retry task sends for a message is made from the payload it was stored with. -/
theorem Whole.resends {c : Traffic S D} (h : Whole config codec c) {id : MessageId} {s : SubmitSm}
    (hbearing : c.Bearing id (kept s)) {pdu : SubmitSm} (hresends : c.Resends id pdu) :
    pdu = s ↔ Plain s := by
  obtain ⟨name, k, current, htask, hloaded⟩ := hresends
  rcases h.traced .retry with hidle | ⟨p, rfl, hreach⟩
  · rw [htask] at hidle
    cases hidle
  · rw [htask] at hreach
    obtain ⟨id', m, hloaded', rfl⟩ := resends_loaded hreach
    rw [hloaded] at hloaded'
    cases hloaded'
    exact build_eq_iff (hbearing.found current (mem_of_loaded hloaded))

end Traffic

/-- **Retries resend what was submitted exactly when the submitted PDU is plain.**  In every run of the gateway,
    over either back end: a first attempt sends the PDU of its request; and once a request has stored its
    message, then as long as the record under the id is that message's, what `build_submit_sm` makes of it and
    what a retry is about to send are the submitted PDU if and only if it is plain. -/
theorem retries_resend_iff [Storage S] [PayloadStorage S] (config : RetryConfig) (codec : DlrCodec D)
    (w : World S (Output D)) (hgood : PayloadStorage.Good w.storage)
    (before after : List (Traffic.Move S D)) (c₀ c₁ c : Traffic S D)
    (n : Nat) (env : Env) (request : ForwardRequest) (m : StoredMessage)
    (hbefore : run (Traffic.step config codec) (.start w) before = some c₀)
    (htended : Meets (Traffic.step config codec) Traffic.Tended (.start w) before)
    (hstores : c₀.Stores n request m)
    (hstore : Traffic.step config codec c₀ (.advance (.request n) env) = some c₁)
    (hunseen : ∀ r, (⟨.get m.id, r⟩ : Call D) ∉ c₁.calls .retry)
    (hafter : run (Traffic.step config codec) c₁ after = some c)
    (hleaves : Meets (Traffic.step config codec) (Traffic.Leaves m.id) c₁ after) :
    (∀ calls name pdu k, Reaches (processRequest request : Body (Output D) Unit) calls
        (.call (.sendPdu name pdu) k) → pdu = request.submitSm) ∧
    (∀ env m', Storage.get env m.id c.world.storage = some m' →
      (buildSubmitSm m' = request.submitSm ↔ Plain request.submitSm)) ∧
    ∀ pdu, c.Resends m.id pdu → (pdu = request.submitSm ↔ Plain request.submitSm) := by
  have hwhole₀ : c₀.Whole config codec :=
    meets_inv Traffic.step_whole (Traffic.whole_start hgood) htended hbefore
  have htended₀ : c₀.Tended (.advance (.request n) env) := trivial
  have hwhole₁ : c₁.Whole config codec := Traffic.step_whole c₀ _ c₁ hwhole₀ htended₀ hstore
  have hbearing₁ := hwhole₀.bearing hstores hstore hunseen
  obtain ⟨hwhole, hbearing⟩ := meets_inv Traffic.step_bears ⟨hwhole₁, hbearing₁⟩ hleaves hafter
  refine ⟨fun calls name pdu k hreach => sends_submitted hreach, fun env m' hget => ?_, fun pdu hresends => ?_⟩
  · exact build_eq_iff (hbearing.stored env m' hget)
  · exact hwhole.resends hbearing hresends

/-! ## A plain message, and one with international numbers -/

/-- A request up to where its message is stored. -/
def drawing (request : ForwardRequest) : List (Traffic.Move MemoryStorage ParsedDlr) :=
  [.spawn 0 request, .advance (.request 0) (down (some ⟨"route", "a", []⟩))]

/-- The cluster of the route is there again, two seconds later. -/
def recovered : Env :=
  ⟨⟨⟨fromSecs 2, fromSecs 2⟩, .listed⟩, some ⟨"route", "a", []⟩, some false, true, .timeout, false, false⟩

/-- All clusters fail; then the message is retried, up to where it is sent. -/
def retried : List (Traffic.Move MemoryStorage ParsedDlr) :=
  List.replicate 6 (.advance (.request 0) (down (some ⟨"route", "a", []⟩))) ++
    .retryTick :: List.replicate 6 (.advance .retry recovered)

/-- The sample request, its numbers given as international ones. -/
def internationalRequest : ForwardRequest :=
  { sampleRequest with
    submitSm := { sampleRequest.submitSm with sourceAddrTon := 1, destAddrTon := 1 } }

/-- Nothing of the sample is lost. -/
theorem plain_sample : Plain sampleRequest.submitSm :=
  ⟨rfl, rfl, rfl, rfl, rfl, rfl, rfl, rfl, rfl, rfl, rfl, rfl⟩

/-- The sample request comes back as it was. -/
theorem retries_resend_sample :
    ∃ c₀ c₁ c pdu,
      run (Traffic.step ⟨1, 60⟩ plainReceipts) (.start emptyWorld) (drawing sampleRequest) = some c₀ ∧
      Traffic.step ⟨1, 60⟩ plainReceipts c₀ (.advance (.request 0) (down none)) = some c₁ ∧
      run (Traffic.step ⟨1, 60⟩ plainReceipts) c₁ retried = some c ∧
      c.Resends ⟨0⟩ pdu ∧ pdu = sampleRequest.submitSm := by
  have hgood : PayloadStorage.Good emptyWorld.storage := fun id m hget => nomatch hget
  refine ⟨_, _, _, _, rfl, rfl, rfl, ⟨_, _, _, rfl, rfl⟩, ?_⟩
  refine ((retries_resend_iff ⟨1, 60⟩ plainReceipts emptyWorld hgood (drawing sampleRequest) retried _ _ _ 0
    (down none) sampleRequest _ rfl ?_ ⟨_, rfl, .next .start _⟩ rfl ?_ rfl ?_).2.2 _
    ⟨_, _, _, rfl, rfl⟩).mpr plain_sample
  · exact ⟨trivial, fun c hc => ⟨trivial, fun c' hc' => trivial⟩⟩
  · exact fun r hr => nomatch hr
  · -- the request task has stored its message, the retry task stores none
    iterate 13
      refine ⟨⟨trivial, trivial⟩, fun c hc => ?_⟩
      obtain rfl := Option.some.inj hc
    trivial

/-- The first attempt of the international request asks for type of number 1; its retry does not. -/
theorem retry_drops_type_of_number :
    ¬ ∀ (after : List (Traffic.Move MemoryStorage ParsedDlr)) (c₀ c₁ c : Traffic MemoryStorage ParsedDlr)
        (m : StoredMessage) (pdu : SubmitSm),
      run (Traffic.step ⟨1, 60⟩ plainReceipts) (.start emptyWorld) (drawing internationalRequest) = some c₀ →
      c₀.Stores 0 internationalRequest m →
      Traffic.step ⟨1, 60⟩ plainReceipts c₀ (.advance (.request 0) (down none)) = some c₁ →
      run (Traffic.step ⟨1, 60⟩ plainReceipts) c₁ after = some c →
      c.Resends m.id pdu → pdu = internationalRequest.submitSm := by
  intro hall
  have hsame := hall retried _ _ _ _ _ rfl ⟨_, rfl, .next .start _⟩ rfl rfl ⟨_, _, _, rfl, rfl⟩
  exact absurd (congrArg SubmitSm.sourceAddrTon hsame) (by decide)

end Smppd.Forwarder
