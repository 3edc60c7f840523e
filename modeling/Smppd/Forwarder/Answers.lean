/-
  ANSWERS: what a client is told of its message, and what has become of it.

  `process_request` decides the answer and the state in separate statements, on four exits: no route, a
  cluster accepts, all refuse and the message can be retried, all refuse and it cannot.  Three of them
  agree.  On the last the message is marked `Failed` and the client is told that all is well: the answer is
  the one of the exit before it.

  Which exit is taken can be read off the surroundings.  `refused` follows the clusters with nothing but the
  answers they give, and says how many calls it takes to be refused by all.  A new message has two attempts
  to spare, so it cannot be retried only when its time to live has passed by then; since when a back end
  counts that is `ChanceStorage.since`: the in-memory one since the message was drawn, the persistent one
  since the record was read.

  * `tryClusters_exec` — the loop does what `refused` says, and only annotates the record;
  * `answers_honest_iff` — the answer is honest unless a route was found, every cluster refuses and the time
    to live has passed.
-/
import Smppd.Forwarder.RetryBound

set_option linter.unusedVariables false

namespace Smppd.Forwarder

open Smppd.Store Smppd.Gateway Prog

variable {D S : Type}

/-! ## A new message -/

/-- The chances of a message as `process_request` stores it. -/
def newChances (createdAt : Instant) : Chances := ⟨0, 3, fromSecs 3600, createdAt⟩

/-- A message that was never attempted can be retried until its time to live has passed. -/
theorem canRetry_of_new {m : StoredMessage} {createdAt : Instant} (h : m.chances = newChances createdAt) (clock : Clock) :
    m.canRetry clock = false ↔ fromSecs 3600 < elapsed clock createdAt := by
  obtain ⟨hattempts, hmax, httl, hcreated⟩ := Chances.mk.inj h
  unfold StoredMessage.canRetry StoredMessage.isExpired
  rw [hattempts, hmax, httl, hcreated]
  simp

theorem keepsChances_recordResponse (clock : Clock) (status : UInt32) (messageId : Option String) (latency : UInt64) :
    KeepsChances (StoredMessage.recordResponse clock status messageId latency) := ⟨fun _ => rfl, fun _ => rfl⟩

/-! ## What the clusters say -/

/-- How many calls it takes to be refused by a cluster; `none` when it accepts. -/
def refusal (env : Nat → Env) : Option Nat :=
  match (env 0).cluster with
  | none => some 1
  | some true => none
  | some false =>
    match (env 1).connection with
    | false => some 2
    | true =>
      match (env 2).reply with
      | .submitSmResp status _ => if status ≠ 0 then some 4 else none
      | _ => some 3

/-- How many calls it takes to be refused by all of them. -/
def refused : List String → (Nat → Env) → Option Nat
  | [], _ => some 0
  | _ :: rest, env =>
    (refusal env).bind fun k => (refused rest fun i => env (i + k)).map fun n => n + k

/-- A request found a way, nobody took the message, and by then its time to live had passed. -/
def Stranded (S : Type) [Storage S] [ChanceStorage S] (env : Nat → Env) : Prop :=
  ∃ route k, (env 2).route = some route ∧ refused route.clustersToTry (fun i => env (i + 3)) = some k ∧
    fromSecs 3600 < elapsed (env (k + 4)).store.clock
      (ChanceStorage.since S (env 0).store.clock.now (env (k + 3)).store.clock)

/-! ## The loop over the clusters -/

section Loop

variable [Storage S] [ChanceStorage S]

/-- What trying clusters may do to the world. -/
structure Annotated (id : MessageId) (w w' : World S (Output D)) : Prop where
  sent : w'.sent = w.sent
  holds : ∀ c, ChanceStorage.Holds w.storage id c → ChanceStorage.Holds w'.storage id c

theorem Annotated.refl (id : MessageId) (w : World S (Output D)) : Annotated id w w := ⟨rfl, fun _ h => h⟩

theorem Annotated.trans {id : MessageId} {w w' w'' : World S (Output D)} (h : Annotated id w w')
    (h' : Annotated id w' w'') : Annotated id w w'' :=
  ⟨h'.sent.trans h.sent, fun created hw => h'.holds created (h.holds created hw)⟩

theorem tryForwardToCluster_exec (name : String) (id : MessageId) (submitSm : SubmitSm) (env : Nat → Env)
    (w : World S (Output D)) :
    ∃ w', Annotated id w w' ∧ match refusal env with
      | none => ∃ upstreamId env', (tryForwardToCluster name id submitSm).exec handle env w =
          (.ok upstreamId, w', env')
      | some k => ∃ e, (tryForwardToCluster name id submitSm).exec handle env w =
          (.error e, w', fun i => env (i + k)) := by
  unfold tryForwardToCluster sendSubmitSm refusal
  simp only [request_bind, exec_call, handle]
  cases (env 0).cluster with
  | none => exact ⟨w, .refl id w, _, rfl⟩
  | some mock =>
    cases mock with
    | true => exact ⟨w, .refl id w, _, _, rfl⟩
    | false =>
      simp only [exec_call, handle]
      cases (env 1).connection with
      | false => exact ⟨w, .refl id w, _, rfl⟩
      | true =>
        simp only [call_bind, exec_call, handle]
        cases (env 2).reply with
        | submitSmResp status upstreamId =>
          have hnote : Annotated id w { w with storage := (Storage.update (env 3).store id (fun m =>
              m.recordResponse (env 3).store.clock status (some upstreamId) 0) w.storage).1 } :=
            ⟨rfl, fun c hw => ChanceStorage.holds_update _ _ _ _ c (keepsChances_recordResponse _ _ _ _) hw⟩
          refine ⟨_, hnote, ?_⟩
          simp only [pure_eq, ret_bind, exec_call, handle]
          by_cases hstatus : status ≠ 0
          · rw [if_pos hstatus, if_pos hstatus]
            exact ⟨_, rfl⟩
          · rw [if_neg hstatus, if_neg hstatus]
            exact ⟨_, _, rfl⟩
        | _ => exact ⟨w, .refl id w, _, rfl⟩

/-- **The loop**, by induction on the clusters that are left. -/
theorem tryClusters_exec (id : MessageId) (submitSm : SubmitSm) (names : List String)
    (lastError : Option ForwardError) (env : Nat → Env) (w : World S (Output D)) :
    ∃ w', Annotated id w w' ∧ match refused names env with
      | none => ∃ reached env', (tryClusters id submitSm names lastError).exec handle env w =
          (.ok reached, w', env')
      | some k => ∃ e, (tryClusters id submitSm names lastError).exec handle env w =
          (.error e, w', fun i => env (i + k)) := by
  induction names generalizing lastError env w with
  | nil => exact ⟨w, .refl id w, _, rfl⟩
  | cons name rest ih =>
    obtain ⟨w₁, hfirst, htry⟩ := tryForwardToCluster_exec name id submitSm env w
    unfold tryClusters refused
    rw [exec_bind]
    cases hrefusal : refusal env with
    | none =>
      rw [hrefusal] at htry
      obtain ⟨upstreamId, env', hexec⟩ := htry
      rw [hexec]
      exact ⟨w₁, hfirst, _, _, rfl⟩
    | some k =>
      rw [hrefusal] at htry
      obtain ⟨e, hexec⟩ := htry
      rw [hexec]
      obtain ⟨w₂, hrest, hloop⟩ := ih (some e) (fun i => env (i + k)) w₁
      refine ⟨w₂, hfirst.trans hrest, ?_⟩
      simp only [Option.bind_some]
      cases hrefused : refused rest fun i => env (i + k) with
      | none =>
        rw [hrefused] at hloop
        exact hloop
      | some n =>
        rw [hrefused] at hloop
        obtain ⟨e', hexec'⟩ := hloop
        refine ⟨e', hexec'.trans ?_⟩
        simp only [Nat.add_assoc]

end Loop

/-! ## The four exits -/

section Exits

variable [Storage S] [ChanceStorage S]

/-- The world after a request, run alone. -/
def answered (request : ForwardRequest) (env : Nat → Env) (w : World S (Output D)) : World S (Output D) :=
  ((processRequest request).exec handle env w).2.1

/-- The request ends with this answer, its message in this state. -/
def Ends (request : ForwardRequest) (env : Nat → Env) (w : World S (Output D)) (result : ForwardResult)
    (state : MessageState) : Prop :=
  (answered request env w).sent = w.sent ++ [.result result] ∧
    HasState (MessageId.new w.counter).1 state (answered request env w).storage

variable (request : ForwardRequest) {env : Nat → Env} (w : World S (Output D))

/-- The message that is stored. -/
def drawn (request : ForwardRequest) (clock : Clock) (counter : Nat) : StoredMessage :=
  (((StoredMessage.new clock counter request.submitSm.sourceAddr request.submitSm.destAddr
    request.submitSm.shortMessage request.clientSystemId request.sequenceNumber).1.withDataCoding
    request.submitSm.dataCoding).withEsmClass request.submitSm.esmClass).withRegisteredDelivery
    request.submitSm.registeredDelivery

/-- The world when it has been. -/
def afterStore (request : ForwardRequest) (env : Nat → Env) (w : World S (Output D)) : World S (Output D) :=
  { storage := Storage.store (env 1).store (drawn request (env 0).store.clock w.counter) w.storage
    counter := w.counter + 1
    sent := w.sent }

theorem holds_afterStore (env : Nat → Env) :
    ChanceStorage.Holds (afterStore request env w).storage (MessageId.new w.counter).1
      (newChances (env 0).store.clock.now) :=
  ChanceStorage.holds_store (env 1).store (drawn request (env 0).store.clock w.counter) w.storage 3600 rfl

variable {request w}

/-- An exit: the update that gives the message its state, and the answer. -/
theorem ends_of_eq {w' : World S (Output D)} (e : StoreEnv) (f : Clock → StoredMessage → StoredMessage)
    {state : MessageState} {result : ForwardResult} (hannotated : Annotated (MessageId.new w.counter).1
      (afterStore request env w) w') (hid : ∀ clock m, (f clock m).id = m.id)
    (hstate : ∀ clock m, (f clock m).state = state)
    (hend : answered request env w =
      { storage := (Storage.update e (MessageId.new w.counter).1 (f e.clock) w'.storage).1
        counter := w'.counter
        sent := w'.sent ++ [.result result] }) :
    Ends request env w result state := by
  unfold Ends
  rw [hend]
  refine ⟨congrArg (· ++ [Output.result result]) hannotated.sent, ?_⟩
  exact ChanceStorage.state_update e _ _ _ _ state (hid _) (hstate _)
    (hannotated.holds _ (holds_afterStore request w env))

/-- No route. -/
theorem ends_no_route (hroute : (env 2).route = none) :
    Ends request env w (.failure (MessageId.new w.counter).1.toText 0x0B "no route found") .failed := by
  refine ends_of_eq (env 3).store (fun clock m => m.markFailed clock (some 0x0B) "no route found")
    (.refl _ _) (fun _ _ => rfl) (fun _ _ => rfl) ?_
  unfold answered processRequest
  simp only [request_bind, exec_call, handle, hroute]
  rfl

variable {route : RouteResult} (hroute : (env 2).route = some route)

include hroute

/-- A cluster accepts. -/
theorem ends_accepted (hrefused : refused route.clustersToTry (fun i => env (i + 3)) = none) :
    Ends request env w (.success (MessageId.new w.counter).1.toText) .inFlight := by
  obtain ⟨w', hannotated, htry⟩ := tryClusters_exec (MessageId.new w.counter).1 request.submitSm
    route.clustersToTry none (fun i => env (i + 3)) (afterStore request env w)
  rw [hrefused] at htry
  obtain ⟨⟨name, upstreamId⟩, env', hexec⟩ := htry
  refine ends_of_eq (env' 0).store (accepted name upstreamId) hannotated (fun _ _ => rfl) (fun _ _ => rfl) ?_
  unfold answered processRequest
  simp only [request_bind, exec_call, handle, hroute]
  show ((tryClusters (MessageId.new w.counter).1 request.submitSm route.clustersToTry none >>= _).exec handle
    (fun i => env (i + 3)) (afterStore request env w)).2.1 = _
  rw [exec_bind, hexec]
  rfl

omit [ChanceStorage S] in
/-- All refuse: the rest of the body, from the check of the record on. -/
theorem answered_refused {w' : World S (Output D)} {lastError : Option ForwardError} {env' : Nat → Env}
    (hexec : (tryClusters (MessageId.new w.counter).1 request.submitSm route.clustersToTry none).exec handle
      (fun i => env (i + 3)) (afterStore request env w) = (.error lastError, w', env'))
    {m : StoredMessage} (hget : Storage.get (env' 0).store (MessageId.new w.counter).1 w'.storage = some m) :
    ∃ errorMsg, answered request env w =
      { storage := (Storage.update (env' 2).store (MessageId.new w.counter).1
          (if m.canRetry (env' 1).store.clock
            then .markRetry (env' 2).store.clock (fromSecs 1) (some 0x58) errorMsg
            else .markFailed (env' 2).store.clock (some 0x58) errorMsg) w'.storage).1
        counter := w'.counter
        sent := w'.sent ++ [.result (.success (MessageId.new w.counter).1.toText)] } := by
  refine ⟨(lastError.map ForwardError.toText).getD "all clusters failed", ?_⟩
  unfold answered processRequest
  simp only [request_bind, exec_call, handle, hroute]
  show ((tryClusters (MessageId.new w.counter).1 request.submitSm route.clustersToTry none >>= _).exec handle
    (fun i => env (i + 3)) (afterStore request env w)).2.1 = _
  rw [exec_bind, hexec]
  -- the record is asked for under the id of the message that was drawn
  change Storage.get (env' 0).store (drawn request (env 0).store.clock w.counter).id w'.storage = some m at hget
  rw [drawn] at hget
  simp only [exec_call, handle, hget, Option.map_some, Option.getD_some, Nat.zero_add]
  cases m.canRetry (env' 1).store.clock with
  | true => rfl
  | false => rfl

/-- What happens to the message then depends on its age; the answer does not. -/
theorem ends_refused {k : Nat} (hrefused : refused route.clustersToTry (fun i => env (i + 3)) = some k) :
    Ends request env w (.success (MessageId.new w.counter).1.toText)
      (if fromSecs 3600 < elapsed (env (k + 4)).store.clock
          (ChanceStorage.since S (env 0).store.clock.now (env (k + 3)).store.clock) then .failed
        else .retrying) := by
  obtain ⟨w', hannotated, htry⟩ := tryClusters_exec (MessageId.new w.counter).1 request.submitSm
    route.clustersToTry none (fun i => env (i + 3)) (afterStore request env w)
  rw [hrefused] at htry
  obtain ⟨lastError, hexec⟩ := htry
  -- the surroundings the check meets
  have hcheck : (fun i => env (i + k + 3)) 0 = env (k + 3) := congrArg env (by omega)
  have hnow : (fun i => env (i + k + 3)) 1 = env (k + 4) := congrArg env (by omega)
  generalize (fun i => env (i + k + 3)) = env' at hexec hcheck hnow
  obtain ⟨m, hget, hchances⟩ := ChanceStorage.get_of_holds (env' 0).store _ _ _
    (hannotated.holds _ (holds_afterStore request w env))
  have hretry := canRetry_of_new hchances (env' 1).store.clock
  obtain ⟨errorMsg, hanswered⟩ := answered_refused hroute hexec hget
  rw [hcheck, hnow] at hretry
  by_cases hold : fromSecs 3600 < elapsed (env (k + 4)).store.clock
      (ChanceStorage.since S (env 0).store.clock.now (env (k + 3)).store.clock)
  · rw [if_pos hold]
    refine ends_of_eq (env' 2).store (fun clock m => m.markFailed clock (some 0x58) errorMsg) hannotated
      (fun _ _ => rfl) (fun _ _ => rfl) (hanswered.trans ?_)
    rw [hnow, hretry.mpr hold]
    rfl
  · rw [if_neg hold]
    refine ends_of_eq (env' 2).store (fun clock m => m.markRetry clock (fromSecs 1) (some 0x58) errorMsg)
      hannotated (fun _ _ => rfl) (fun _ _ => rfl) (hanswered.trans ?_)
    have hcan : m.canRetry (env (k + 4)).store.clock = true := by
      rw [← Bool.not_eq_false, hretry]
      exact hold
    rw [hnow, hcan]
    rfl

end Exits

/-! ## Honest answers -/

section Honesty

variable [Storage S]

/-- One answer was sent.  It says that all is well if the message has been accepted or waits for a retry, and
    only then; of a message that has failed it does not say so. -/
def Honest (id : MessageId) (w w' : World S (Output D)) : Prop :=
  ∃ r : ForwardResult, w'.sent = w.sent ++ [.result r] ∧
    (r.commandStatus = 0 ↔ HasState id .inFlight w'.storage ∨ HasState id .retrying w'.storage) ∧
    (HasState id .failed w'.storage → r.commandStatus ≠ 0)

/-- For a request that ends in a known state it is enough to look at the state and the status. -/
theorem Ends.honest_iff {request : ForwardRequest} {env : Nat → Env} {w : World S (Output D)}
    {result : ForwardResult} {state : MessageState} (h : Ends request env w result state) :
    Honest (MessageId.new w.counter).1 w (answered request env w) ↔
      (result.commandStatus = 0 ↔ state = .inFlight ∨ state = .retrying) ∧
        (state = .failed → result.commandStatus ≠ 0) := by
  obtain ⟨hsent, hstate⟩ := h
  have hhas : ∀ state', HasState (MessageId.new w.counter).1 state' (answered request env w).storage ↔
      state = state' := by
    intro state'
    constructor
    · exact hstate.unique
    · rintro rfl
      exact hstate
  unfold Honest
  simp only [hhas, hsent, List.append_cancel_left_eq, List.cons.injEq, Output.result.injEq, and_true]
  constructor
  · rintro ⟨r, rfl, hhonest⟩
    exact hhonest
  · exact fun hhonest => ⟨result, rfl, hhonest⟩

/-- **A request is answered honestly exactly when its message is not stranded.**  For every request, storage
    and surroundings: one answer is sent, and it tells the client what has become of the message, unless a
    route was found, every cluster refuses and the time to live has passed when that is clear.  Then the
    message is marked `Failed` and the client is told that all is well. -/
theorem answers_honest_iff [ChanceStorage S] (request : ForwardRequest) (env : Nat → Env)
    (w : World S (Output D)) :
    Honest (MessageId.new w.counter).1 w (answered request env w) ↔ ¬ Stranded S env := by
  cases hroute : (env 2).route with
  | none =>
    rw [(ends_no_route hroute).honest_iff]
    have hstatus : (0x0B : UInt32) ≠ 0 := by decide
    constructor
    · rintro - ⟨route, k, hfound, -⟩
      rw [hroute] at hfound
      cases hfound
    · refine fun _ => ⟨⟨fun h => absurd h hstatus, ?_⟩, fun _ => hstatus⟩
      rintro (h | h) <;> cases h
  | some route =>
    cases hrefused : refused route.clustersToTry fun i => env (i + 3) with
    | none =>
      rw [(ends_accepted hroute hrefused).honest_iff]
      constructor
      · rintro - ⟨route', k, hfound, hall, -⟩
        obtain rfl : route = route' := Option.some.inj (hroute.symm.trans hfound)
        rw [hrefused] at hall
        cases hall
      · exact fun _ => ⟨⟨fun _ => Or.inl rfl, fun _ => rfl⟩, nofun⟩
    | some k =>
      rw [(ends_refused hroute hrefused).honest_iff]
      have hstranded : Stranded S env ↔ fromSecs 3600 < elapsed (env (k + 4)).store.clock
          (ChanceStorage.since S (env 0).store.clock.now (env (k + 3)).store.clock) := by
        constructor
        · rintro ⟨route', k', hfound, hall, hold⟩
          obtain rfl : route = route' := Option.some.inj (hroute.symm.trans hfound)
          obtain rfl : k = k' := Option.some.inj (hrefused.symm.trans hall)
          exact hold
        · exact fun hold => ⟨route, k, hroute, hrefused, hold⟩
      rw [hstranded]
      by_cases hold : fromSecs 3600 < elapsed (env (k + 4)).store.clock
          (ChanceStorage.since S (env 0).store.clock.now (env (k + 3)).store.clock)
      · rw [if_pos hold]
        exact ⟨fun h => absurd rfl (h.2 rfl), fun h => absurd hold h⟩
      · rw [if_neg hold]
        exact ⟨fun _ => hold, fun _ => ⟨⟨fun _ => Or.inr rfl, fun _ => rfl⟩, nofun⟩⟩

end Honesty

/-- A pool without a free connection, and a client that waits two hours for one. -/
def exhausted (i : Nat) : Env :=
  ⟨⟨⟨if i < 5 then 0 else fromSecs 7200, 0⟩, .listed⟩, some ⟨"route", "a", []⟩, some false, false, .timeout,
    false, false⟩

/-- The message of the sample request fails after two hours, and the client is told that all is well. -/
theorem failed_answered_ok :
    ¬ ∀ (request : ForwardRequest) (env : Nat → Env) (w : World MemoryStorage (Output Unit)),
      Honest (MessageId.new w.counter).1 w (answered request env w) := by
  intro hall
  have hhonest := hall sampleRequest exhausted ⟨.withConfig ⟨1000, 512, 10⟩, 0, []⟩
  have hrefused : refused (RouteResult.clustersToTry ⟨"route", "a", []⟩) (fun i => exhausted (i + 3)) = some 2 :=
    rfl
  rw [(ends_refused rfl hrefused).honest_iff, if_pos (by decide)] at hhonest
  exact absurd rfl (hhonest.2 rfl)

end Smppd.Forwarder
