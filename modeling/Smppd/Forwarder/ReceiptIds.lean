/-
  THE ID IN A RECEIPT, and the id the client was given.

  Three places assign ids.  `process_request` answers the client with the gateway's own id of the
  message (`msg_17`).  The upstream accepts the message under an id of ITS own, which the update after
  the reply, here or in a retry, writes into the record.  And `process_dlr` finds the record by the
  upstream id and relays the `deliver_sm` as it came.  Nothing translates the one id into the other.

  The machine is the tasks of the forwarder interleaved at their calls; of each task it keeps the calls
  it has made, with their answers, so that one can say which message a request has stored and which
  message a receipt was found to be for.  Nothing is assumed of the storage, and whatever else may
  happen to it (expiry, pruning, a restart) is a move of its own: the results hold for any back end
  and after any number of retries.

  * `answered_stored` — a request answers with the id of the message it has stored, on every path;
  * `forwarded_found` — a receipt goes to the client of the message its queries found, unchanged;
  * `receipts_carry_given_id_iff` — so it carries the id the client was given exactly when the record
    has that very id as its upstream id.
-/
import Smppd.Forwarder.Terminal
import Smppd.Forwarder.FirstReceipt

set_option linter.unusedVariables false

namespace Smppd.Forwarder

open Smppd.Store Smppd.Gateway Prog Machine

variable {D S : Type}

/-! ## The machine -/

/-- A call of a task, with its answer. -/
abbrev Call (D : Type) := Sigma fun op : Op (Output D) => op.Res

/-- The gateway at work: the shared state, what is left of each task, and the calls it has made. -/
structure Traffic (S D : Type) where
  world : World S (Output D)
  task : Tid → Body (Output D) Unit
  calls : Tid → List (Call D)

namespace Traffic

/-- What can happen next. -/
inductive Move (S D : Type) where
  /-- The forwarder spawns a task for a request. -/
  | spawn (n : Nat) (request : ForwardRequest)
  /-- The interval of the retry processor fires. -/
  | retryTick
  /-- The receipt processor takes the next event. -/
  | dlrRecv (event : DlrEvent D)
  /-- A task makes its next call. -/
  | advance (t : Tid) (env : Env)
  /-- Something else leaves the storage like this. -/
  | elsewhere (storage : S)

/-- No task has been started. -/
def start (w : World S (Output D)) : Traffic S D := ⟨w, fun _ => .ret (), fun _ => []⟩

/-- Start a body in a free slot. -/
def launch (c : Traffic S D) (t : Tid) (p : Body (Output D) Unit) : Option (Traffic S D) :=
  if idle (c.task t) then
    some { c with task := Function.update c.task t p, calls := Function.update c.calls t [] }
  else none

/-- One call of the task. -/
def advance [Storage S] (c : Traffic S D) (t : Tid) (env : Env) : Option (Traffic S D) :=
  match c.task t with
  | .ret _ => none
  | .call op k =>
    some
      { world := (handle env op c.world).2
        task := Function.update c.task t (k (handle env op c.world).1)
        calls := Function.update c.calls t (c.calls t ++ [⟨op, (handle env op c.world).1⟩]) }

/-- One step of the gateway. -/
def step [Storage S] (config : RetryConfig) (codec : DlrCodec D) (c : Traffic S D) :
    Move S D → Option (Traffic S D)
  | .spawn n request => c.launch (.request n) (processRequest request)
  | .retryTick => c.launch .retry (processRetries config)
  | .dlrRecv event => c.launch .dlr (processDlr codec event)
  | .advance t env => c.advance t env
  | .elsewhere storage => some { c with world := { c.world with storage := storage } }

/-! ## What is left of a task is what its calls have left of its body -/

/-- The bodies the task may run. -/
def Runs (config : RetryConfig) (codec : DlrCodec D) : Tid → Body (Output D) Unit → Prop
  | .request _, p => ∃ request, p = processRequest request
  | .retry, p => p = processRetries config
  | .dlr, p => ∃ event, p = processDlr codec event

/-- Every task that has something left to do has come there from its body, by its calls. -/
def Traced (config : RetryConfig) (codec : DlrCodec D) (c : Traffic S D) : Prop :=
  ∀ t, c.task t = .ret () ∨ ∃ p, Runs config codec t p ∧ Reaches p (c.calls t) (c.task t)

variable {config : RetryConfig} {codec : DlrCodec D}

theorem traced_start (w : World S (Output D)) : Traced config codec (start w) := fun t => Or.inl rfl

/-- One task moves on, the others stay where they are. -/
theorem Traced.set {c : Traffic S D} (h : Traced config codec c) (t : Tid) {w : World S (Output D)}
    {p p' : Body (Output D) Unit} {calls : List (Call D)} (hp : Runs config codec t p)
    (hreach : Reaches p calls p') :
    Traced config codec ⟨w, Function.update c.task t p', Function.update c.calls t calls⟩ := by
  intro t'
  by_cases ht : t' = t
  · subst ht
    refine Or.inr ⟨p, hp, ?_⟩
    simp only [Function.update_self]
    exact hreach
  · simp only [Function.update_of_ne ht]
    exact h t'

/-- What a step does: it starts a body, makes a call of one, or changes the storage from elsewhere. -/
theorem step_cases [Storage S] {c c' : Traffic S D} {a : Move S D} (h : step config codec c a = some c') :
    (∃ t p, Runs config codec t p ∧
      c' = ⟨c.world, Function.update c.task t p, Function.update c.calls t []⟩) ∨
    (∃ t env op k, a = .advance t env ∧ c.task t = .call op k ∧
      c' = ⟨(handle env op c.world).2, Function.update c.task t (k (handle env op c.world).1),
        Function.update c.calls t (c.calls t ++ [⟨op, (handle env op c.world).1⟩])⟩) ∨
    ∃ storage, a = .elsewhere storage ∧ c' = { c with world := { c.world with storage := storage } } := by
  have hlaunch : ∀ t p, c.launch t p = some c' →
      c' = ⟨c.world, Function.update c.task t p, Function.update c.calls t []⟩ := by
    intro t p hlaunch
    unfold Traffic.launch at hlaunch
    split at hlaunch
    · exact (Option.some.inj hlaunch).symm
    · cases hlaunch
  cases a with
  | spawn n request => exact Or.inl ⟨.request n, _, ⟨request, rfl⟩, hlaunch _ _ h⟩
  | retryTick => exact Or.inl ⟨.retry, _, rfl, hlaunch _ _ h⟩
  | dlrRecv event => exact Or.inl ⟨.dlr, _, ⟨event, rfl⟩, hlaunch _ _ h⟩
  | advance t env =>
    change c.advance t env = some c' at h
    unfold Traffic.advance at h
    cases htask : c.task t with
    | ret a =>
      rw [htask] at h
      cases h
    | call op k =>
      rw [htask] at h
      exact Or.inr (Or.inl ⟨t, env, op, k, rfl, htask, (Option.some.inj h).symm⟩)
  | elsewhere storage => exact Or.inr (Or.inr ⟨storage, rfl, (Option.some.inj h).symm⟩)

/-- **The step lemma.** -/
theorem step_traced [Storage S] (c : Traffic S D) (a : Move S D) (c' : Traffic S D)
    (h : Traced config codec c) (hstep : step config codec c a = some c') : Traced config codec c' := by
  rcases step_cases hstep with ⟨t, p, hp, rfl⟩ | ⟨t, env, op, k, -, htask, rfl⟩ | ⟨storage, -, rfl⟩
  · exact h.set t hp .start
  · rcases h t with hidle | ⟨p, hp, hreach⟩
    · rw [htask] at hidle
      cases hidle
    · rw [htask] at hreach
      exact h.set t hp (hreach.next _)
  · exact h

end Traffic

/-! ## What a request answers -/

/-- What is known of a request task: the message it has stored, once it has. -/
def answerSpec : Spec (Op (Output D)) Op.Res (Option MessageId)
  | .store m, post, g => g = none ∧ post () (some m.id)
  | .emit (.result r), post, g => (∃ id, g = some id ∧ r.messageId = id.toText) ∧ post () g
  | _, post, g => ∀ r, post r g

theorem frames_answer (id : MessageId) (g : Option MessageId) :
    Frames (answerSpec : Spec (Op (Output D)) _ _) id g where
  cluster name post h := h
  connection name post h := h
  send name pdu post h := h
  record status messageId latency post h := h

/-- On every path the answer of a request has the id of the message it has stored. -/
theorem wp_answer (request : ForwardRequest) :
    (processRequest request : Body (Output D) Unit).wp answerSpec (fun _ _ => True) none := by
  unfold processRequest
  intro m
  refine ⟨rfl, fun route => ?_⟩
  cases route with
  | none => exact fun _ => ⟨⟨m.id, rfl, rfl⟩, trivial⟩
  | some route =>
    show Prog.wp _ (tryClusters m.id _ _ _ >>= _) _ _
    rw [wp_bind]
    have hframes := frames_answer (D := D) m.id (some m.id)
    refine wp_tryClusters (hframes.attempts _) hframes.record _ _ fun r => ?_
    cases r with
    | ok reached => exact fun _ => ⟨⟨m.id, rfl, rfl⟩, trivial⟩
    | error lastError =>
      -- a message that waits for its retry, and one that has failed, are answered alike
      intro current clock
      dsimp only [Prog.bind]
      cases (current.map fun m => m.canRetry clock).getD false with
      | true => exact fun _ => ⟨⟨m.id, rfl, rfl⟩, trivial⟩
      | false => exact fun _ => ⟨⟨m.id, rfl, rfl⟩, trivial⟩

/-- What the calls of a request say about the message it has stored. -/
def Stored (calls : List (Call D)) (g : Option MessageId) : Prop :=
  ∀ m, (⟨.store m, ()⟩ : Call D) ∈ calls → g = some m.id

theorem Stored.other {calls : List (Call D)} {g : Option MessageId} (h : Stored calls g)
    {op : Op (Output D)} (hop : ∀ m, op ≠ .store m) (r : op.Res) : Stored (calls ++ [⟨op, r⟩]) g := by
  intro m hm
  rcases List.mem_append.mp hm with hbefore | hlast
  · exact h m hbefore
  · have hfst := congrArg Sigma.fst (List.mem_singleton.mp hlast)
    exact absurd hfst.symm (hop m)

theorem stored_next (calls : List (Call D)) (g : Option MessageId) (op : Op (Output D))
    (next : op.Res → Option MessageId → Prop) (r : op.Res) (hstored : Stored calls g)
    (hspec : answerSpec op next g) : ∃ g', next r g' ∧ Stored (calls ++ [⟨op, r⟩]) g' := by
  cases op with
  | store m =>
    obtain ⟨rfl, hnext⟩ := hspec
    refine ⟨some m.id, hnext, fun m' hm' => ?_⟩
    -- nothing was stored before: the call is the one just made
    rcases List.mem_append.mp hm' with hbefore | hlast
    · cases hstored m' hbefore
    · cases List.mem_singleton.mp hlast
      rfl
  | emit o =>
    cases o with
    | result answer => exact ⟨g, hspec.2, hstored.other (by intro m hop; cases hop) r⟩
    | receipt systemId deliver => exact ⟨g, hspec r, hstored.other (by intro m hop; cases hop) r⟩
  | _ => exact ⟨g, hspec r, hstored.other (by intro m hop; cases hop) r⟩

/-- **A request answers with the id of the message it has stored**, whatever its calls were answered. -/
theorem answered_stored {request : ForwardRequest} {calls : List (Call D)} {answer : ForwardResult}
    {k : Unit → Body (Output D) Unit}
    (hreach : Reaches (processRequest request) calls (.call (.emit (.result answer)) k))
    {m : StoredMessage} (hm : (⟨.store m, ()⟩ : Call D) ∈ calls) :
    answer.messageId = m.id.toText := by
  obtain ⟨g, hstored, ⟨id, hg, hid⟩, -⟩ :=
    hreach.wp stored_next (fun m hm => absurd hm List.not_mem_nil) (wp_answer request)
  rw [hstored m hm] at hg
  cases hg
  exact hid

/-! ## What a receipt is found to be for -/

/-- What is known of a receipt task: the message its queries have found, once they have. -/
def foundSpec (smscId : String) (deliver : D) : Spec (Op (Output D)) Op.Res (Option StoredMessage)
  | .query q, post, g => g = none ∧ ∀ l : List StoredMessage, post l (l.find? (carries smscId))
  | .tryEmit (.receipt systemId d), post, g =>
    (∃ m, g = some m ∧ systemId = m.systemId ∧ d = deliver) ∧ ∀ b, post b g
  | _, post, g => ∀ r, post r g

theorem wp_forward (smscId : String) (deliver : D) (m : StoredMessage) :
    (forwardToClient m.systemId deliver).wp (foundSpec smscId deliver) (fun _ _ => True) (some m) := by
  unfold forwardToClient
  intro session
  cases session with
  | false => trivial
  | true => exact ⟨⟨m, rfl, rfl, rfl⟩, fun b => trivial⟩

/-- A receipt is relayed as it came, to the client of the message that was found. -/
theorem wp_found {codec : DlrCodec D} {event : DlrEvent D} {dlr : DeliveryReceipt}
    (hparse : codec.parseDlr event.deliverSm = some dlr) :
    (processDlr codec event).wp (foundSpec dlr.smscMessageId event.deliverSm) (fun _ _ => True)
      none := by
  have hmessage : ∀ m : StoredMessage, Prog.wp (foundSpec dlr.smscMessageId event.deliverSm)
      (if dlr.status.isFinal = true then
        .call (.update m.id (settle dlr)) fun _ => forwardToClient m.systemId event.deliverSm
      else forwardToClient m.systemId event.deliverSm) (fun _ _ => True) (some m) := by
    intro m
    split
    · exact fun b => wp_forward dlr.smscMessageId event.deliverSm m
    · exact wp_forward dlr.smscMessageId event.deliverSm m
  unfold processDlr
  simp only [hparse, wp_bind]
  unfold findMessageBySmscId
  simp only [request_bind]
  refine ⟨rfl, fun inFlight => ?_⟩
  cases hfind : inFlight.find? (carries dlr.smscMessageId) with
  | some m =>
    simp only [hfind, pure_eq, wp_ret]
    exact hmessage m
  | none =>
    simp only [hfind]
    refine ⟨rfl, fun retrying => ?_⟩
    simp only [pure_eq, wp_ret]
    cases retrying.find? (carries dlr.smscMessageId) with
    | some m => exact hmessage m
    | none => trivial

/-- What the calls of a receipt task say about the message it has found. -/
def Found (smscId : String) (calls : List (Call D)) (g : Option StoredMessage) : Prop :=
  ∀ m, g = some m → ∃ q l, (⟨.query q, l⟩ : Call D) ∈ calls ∧ l.find? (carries smscId) = some m

theorem Found.other {smscId : String} {calls : List (Call D)} {g : Option StoredMessage}
    (h : Found smscId calls g) (call : Call D) : Found smscId (calls ++ [call]) g := by
  intro m hg
  obtain ⟨q, l, hmem, hfind⟩ := h m hg
  exact ⟨q, l, List.mem_append_left _ hmem, hfind⟩

theorem found_next (smscId : String) (deliver : D) (calls : List (Call D))
    (g : Option StoredMessage) (op : Op (Output D)) (next : op.Res → Option StoredMessage → Prop)
    (r : op.Res) (hfound : Found smscId calls g) (hspec : foundSpec smscId deliver op next g) :
    ∃ g', next r g' ∧ Found smscId (calls ++ [⟨op, r⟩]) g' := by
  cases op with
  | query q =>
    refine ⟨_, hspec.2 r, fun m hm => ⟨q, r, ?_, hm⟩⟩
    exact List.mem_append_right _ List.mem_cons_self
  | tryEmit o =>
    cases o with
    | result answer => exact ⟨g, hspec r, hfound.other _⟩
    | receipt systemId d => exact ⟨g, hspec.2 r, hfound.other _⟩
  | _ => exact ⟨g, hspec r, hfound.other _⟩

/-- **What is forwarded is the receipt as it came**, to the client of a message that one of the queries
    found under the receipt's id. -/
theorem forwarded_found {codec : DlrCodec D} {event : DlrEvent D} {calls : List (Call D)}
    {systemId : String} {deliver : D} {k : Bool → Body (Output D) Unit}
    (hreach : Reaches (processDlr codec event) calls (.call (.tryEmit (.receipt systemId deliver)) k)) :
    ∃ dlr m q l, deliver = event.deliverSm ∧ codec.parseDlr deliver = some dlr ∧
      (⟨.query q, l⟩ : Call D) ∈ calls ∧ l.find? (carries dlr.smscMessageId) = some m ∧
      systemId = m.systemId := by
  cases hparse : codec.parseDlr event.deliverSm with
  | none =>
    -- not a receipt: no call is ever made
    have hnothing : (processDlr codec event).wp (fun _ _ _ => False) (fun _ _ => True) () := by
      unfold processDlr
      rw [hparse]
      trivial
    obtain ⟨_, _, hfalse⟩ := hreach.wp (R := fun _ _ => True)
      (fun _ _ _ _ _ _ hfalse => hfalse.elim) trivial hnothing
    exact hfalse.elim
  | some dlr =>
    obtain ⟨g, hfound, ⟨m, rfl, hsystem, rfl⟩, -⟩ :=
      hreach.wp (found_next dlr.smscMessageId event.deliverSm) (by intro m hm; cases hm) (wp_found hparse)
    obtain ⟨q, l, hmem, hfind⟩ := hfound m rfl
    exact ⟨dlr, m, q, l, rfl, hparse, hmem, hfind, hsystem⟩

/-! ## The id the client was given -/

/-- A request task that has stored a message under the id is about to answer its client, with status 0
    and this message id. -/
def Traffic.Answers (c : Traffic S D) (id : MessageId) (given : String) : Prop :=
  ∃ n m answer k, c.task (.request n) = .call (.emit (.result answer)) k ∧
    answer.commandStatus = 0 ∧ answer.messageId = given ∧
    (⟨.store m, ()⟩ : Call D) ∈ c.calls (.request n) ∧ m.id = id

/-- The receipt task is about to pass a `deliver_sm` that carries this id on to a session, as a receipt
    for the message `m`: one of its queries found `m` under that id. -/
def Traffic.Forwards (codec : DlrCodec D) (c : Traffic S D) (m : StoredMessage) (carried : String) :
    Prop :=
  ∃ deliver k dlr q l, c.task .dlr = .call (.tryEmit (.receipt m.systemId deliver)) k ∧
    codec.parseDlr deliver = some dlr ∧ dlr.smscMessageId = carried ∧
    (⟨.query q, l⟩ : Call D) ∈ c.calls .dlr ∧ l.find? (carries carried) = some m

namespace Traffic

variable {config : RetryConfig} {codec : DlrCodec D}

theorem Traced.answers {c : Traffic S D} (h : Traced config codec c) {id : MessageId} {given : String}
    (hanswers : c.Answers id given) : given = id.toText := by
  obtain ⟨n, m, answer, k, htask, -, rfl, hm, rfl⟩ := hanswers
  rcases h (.request n) with hidle | ⟨p, ⟨request, rfl⟩, hreach⟩
  · rw [htask] at hidle
    cases hidle
  · rw [htask] at hreach
    exact answered_stored hreach hm

/-- Whatever the receipt task is about to pass on, it is a receipt for a message of that client. -/
theorem Traced.forwards {c : Traffic S D} (h : Traced config codec c) {systemId : String} {deliver : D}
    {k : Bool → Body (Output D) Unit}
    (htask : c.task .dlr = .call (.tryEmit (.receipt systemId deliver)) k) :
    ∃ m carried, c.Forwards codec m carried ∧ m.systemId = systemId := by
  rcases h .dlr with hidle | ⟨p, ⟨event, rfl⟩, hreach⟩
  · rw [htask] at hidle
    cases hidle
  · rw [htask] at hreach
    obtain ⟨dlr, m, q, l, -, hparse, hmem, hfind, rfl⟩ := forwarded_found hreach
    exact ⟨m, dlr.smscMessageId, ⟨deliver, k, dlr, q, l, htask, hparse, rfl, hmem, hfind⟩, rfl⟩

/-- What a receipt for a message carries is the upstream id in the record of the message. -/
theorem Forwards.recorded {c : Traffic S D} {m : StoredMessage} {carried : String}
    (h : c.Forwards codec m carried) : m.smscMessageId = some carried := by
  obtain ⟨deliver, k, dlr, q, l, -, -, -, -, hfind⟩ := h
  have hcarries : carries carried m = true := List.find?_some hfind
  exact of_decide_eq_true hcarries

end Traffic

/-- **A receipt carries the id the client was given exactly when that is also the upstream id in the
    record** the receipt was found by.  In every run of the gateway, over any storage: what is passed on
    to a session is a receipt for a message of that client; and when the request for the message was
    answered earlier with status 0, the two ids agree if and only if the record, as the query returned
    it, has the gateway's own id of the message as its `smsc_message_id`. -/
theorem receipts_carry_given_id_iff [Storage S] (config : RetryConfig) (codec : DlrCodec D)
    (w : World S (Output D)) (before after : List (Traffic.Move S D)) (c₀ c : Traffic S D)
    (hbefore : run (Traffic.step config codec) (.start w) before = some c₀)
    (hafter : run (Traffic.step config codec) c₀ after = some c) :
    (∀ systemId deliver k, c.task .dlr = .call (.tryEmit (.receipt systemId deliver)) k →
      ∃ m carried, c.Forwards codec m carried ∧ m.systemId = systemId) ∧
    ∀ m given carried, c₀.Answers m.id given → c.Forwards codec m carried →
      (carried = given ↔ m.smscMessageId = some m.id.toText) := by
  have htraced₀ : c₀.Traced config codec :=
    run_inv Traffic.step_traced (Traffic.traced_start w) hbefore
  have htraced : c.Traced config codec := run_inv Traffic.step_traced htraced₀ hafter
  refine ⟨fun systemId deliver k htask => htraced.forwards htask, ?_⟩
  intro m given carried hanswers hforwards
  rw [htraced₀.answers hanswers, hforwards.recorded, Option.some_inj]

/-- Surroundings in which the upstream accepts the message under this id, and the client is there. -/
def accepting (upstreamId : String) : Env :=
  ⟨asListed, some ⟨"route", "a", []⟩, some false, true, .submitSmResp 0 upstreamId, true, true⟩

/-- An empty store. -/
def emptyWorld : World MemoryStorage (Output ParsedDlr) := ⟨.withConfig ⟨1000, 512, 10⟩, 0, []⟩

/-- The sample request, up to its answer. -/
def submitted (upstreamId : String) : List (Traffic.Move MemoryStorage ParsedDlr) :=
  .spawn 0 sampleRequest :: List.replicate 8 (.advance (.request 0) (accepting upstreamId))

/-- The answer, and the receipt up to where it is passed on. -/
def receipted (upstreamId : String) : List (Traffic.Move MemoryStorage ParsedDlr) :=
  .advance (.request 0) (accepting upstreamId) ::
    .dlrRecv ⟨⟨upstreamId, .delivered, none⟩, "a", "a:2775"⟩ ::
    List.replicate 3 (.advance .dlr (accepting upstreamId))

/-- The record of the sample request's message, once the upstream has accepted it. -/
def acceptedRecord (upstreamId : String) : StoredMessage :=
  accepted "a" upstreamId ⟨0, 0⟩
    ((StoredMessage.new ⟨0, 0⟩ 0 "+258841234567" "+258821234567" [72, 105] "client1" 1).1.recordResponse
      ⟨0, 0⟩ 0 (some upstreamId) 0)

theorem submitted_answers (upstreamId : String) {c₀ : Traffic MemoryStorage ParsedDlr}
    (h : run (Traffic.step ⟨1, 60⟩ plainReceipts) (.start emptyWorld) (submitted upstreamId) = some c₀) :
    c₀.Answers ⟨0⟩ (MessageId.toText ⟨0⟩) := by
  obtain rfl := Option.some.inj h
  exact ⟨0, _, _, _, rfl, rfl, rfl, List.mem_cons_of_mem _ List.mem_cons_self, rfl⟩

/-- An upstream that happens to choose the gateway's own id: the receipt carries what the client was
    given. -/
theorem receipt_carries_given_id :
    ∃ c₀ c,
      run (Traffic.step ⟨1, 60⟩ plainReceipts) (.start emptyWorld) (submitted "msg_0") = some c₀ ∧
      run (Traffic.step ⟨1, 60⟩ plainReceipts) c₀ (receipted "msg_0") = some c ∧
      ∃ given carried, c₀.Answers ⟨0⟩ given ∧
        c.Forwards plainReceipts (acceptedRecord "msg_0") carried ∧ carried = given := by
  refine ⟨_, _, rfl, rfl, "msg_0", "msg_0", submitted_answers "msg_0" rfl, ?_, ?_⟩
  · exact ⟨_, _, _, _, _, rfl, rfl, rfl, List.mem_cons_self, rfl⟩
  · refine ((receipts_carry_given_id_iff ⟨1, 60⟩ plainReceipts emptyWorld (submitted "msg_0")
      (receipted "msg_0") _ _ rfl rfl).2 (acceptedRecord "msg_0") "msg_0" "msg_0"
      (submitted_answers "msg_0" rfl) ?_).mpr rfl
    exact ⟨_, _, _, _, _, rfl, rfl, rfl, List.mem_cons_self, rfl⟩

/-- An upstream that accepts the message under the id `"1"`: the client was given `"msg_0"`, and gets a
    receipt for `"1"`. -/
theorem receipt_carries_upstream_id :
    ¬ ∀ (before after : List (Traffic.Move MemoryStorage ParsedDlr))
        (c₀ c : Traffic MemoryStorage ParsedDlr),
      run (Traffic.step ⟨1, 60⟩ plainReceipts) (.start emptyWorld) before = some c₀ →
      run (Traffic.step ⟨1, 60⟩ plainReceipts) c₀ after = some c →
      ∀ m given carried, c₀.Answers m.id given → c.Forwards plainReceipts m carried →
        carried = given := by
  intro hall
  have hsame : "1" = "msg_0" :=
    hall (submitted "1") (receipted "1") _ _ rfl rfl (acceptedRecord "1") "msg_0" "1"
      (submitted_answers "1" rfl) ⟨_, _, _, _, _, rfl, rfl, rfl, List.mem_cons_self, rfl⟩
  exact absurd hsame (by decide)

end Smppd.Forwarder
