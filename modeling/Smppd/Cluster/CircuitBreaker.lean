/-
  The CIRCUIT BREAKER (`src/cluster/circuit_breaker.rs`) of an endpoint, and what it does when its methods
  are called one after the other.

  The breaker is five cells: the state under a lock, two counters, the time it opened under a lock of its
  own, and a count of the times it did.  Each method is a body of accesses to them, so that the same text
  is read here as a call from beginning to end, and elsewhere as one of many interleaved.

  What it is FOR is said by the reference automaton: it keeps what has been recorded since it entered the
  phase it is in, and knows nothing of counters.  The counters are not all reset in all transitions (the
  failures stay when it opens, the time stays when it half-opens), and `breaker_is_reference` says that it
  does not matter: over any timed run of the methods the breaker answers as the reference does and is in
  the phase the reference is in.

  The clock reads what it reads once in a call, if the call asks at all; time passes between calls.  A
  sliding window for failures is configured and used nowhere; it is left out.
-/
import Smppd.Lib.Prog
import Smppd.Lib.Transducer
import Smppd.Store.Types

set_option linter.unusedVariables false

namespace Smppd.Cluster

open Smppd.Store Prog Transducer

/-! ## The breaker -/

/-- Circuit breaker state. -/
inductive CircuitState where
  | closed
  | opened
  | halfOpen
  deriving DecidableEq

/-- Circuit breaker configuration. -/
structure CircuitBreakerConfig where
  failureThreshold : UInt32 := 5
  successThreshold : UInt32 := 2
  openTimeout : Duration := fromSecs 30

/-- Circuit breaker for an endpoint: its cells. -/
structure CircuitBreaker where
  state : CircuitState := .closed
  /-- Somebody has the write lock of the state. -/
  locked : Bool := false
  failures : UInt32 := 0
  successes : UInt32 := 0
  openedAt : Option Instant := none
  openCount : UInt64 := 0

namespace CircuitBreaker

/-! ## The methods -/

/-- An access to a cell. -/
inductive Call where
  /-- `*self.state.read().unwrap()`, which waits for the lock. -/
  | readState
  /-- `self.state.write().unwrap()`, which waits for the lock: it is taken, and the state read. -/
  | lockState
  | writeState (state : CircuitState)
  /-- The guard is dropped. -/
  | unlockState
  /-- `failures.fetch_add(1)`, which answers what was there before. -/
  | addFailure
  | storeFailures (n : UInt32)
  | addSuccess
  | storeSuccesses (n : UInt32)
  /-- `opened_at.elapsed()`, under the read lock of `opened_at`. -/
  | sinceOpened
  /-- `Instant::now()`. -/
  | now
  | storeOpenedAt (time : Option Instant)
  | addOpenCount

/-- What each call answers. -/
abbrev Call.Res : Call → Type
  | .readState => CircuitState
  | .lockState => CircuitState
  | .addFailure => UInt32
  | .addSuccess => UInt32
  | .sinceOpened => Option Duration
  | .now => Instant
  | _ => Unit

abbrev Body (α : Type) := Prog Call Call.Res α

/-- A single call. -/
abbrev ask (call : Call) : Body call.Res := Prog.request call

/-- What an access does, at this time.  A clock that has gone back has not gone anywhere. -/
def access (now : Instant) : (call : Call) → CircuitBreaker → call.Res × CircuitBreaker
  | .readState, cb => (cb.state, cb)
  | .lockState, cb => (cb.state, { cb with locked := true })
  | .writeState state, cb => ((), { cb with state := state })
  | .unlockState, cb => ((), { cb with locked := false })
  | .addFailure, cb => (cb.failures, { cb with failures := cb.failures + 1 })
  | .storeFailures n, cb => ((), { cb with failures := n })
  | .addSuccess, cb => (cb.successes, { cb with successes := cb.successes + 1 })
  | .storeSuccesses n, cb => ((), { cb with successes := n })
  | .sinceOpened, cb => (cb.openedAt.map fun openedAt => (now - openedAt).toNat, cb)
  | .now, cb => (now, cb)
  | .storeOpenedAt time, cb => ((), { cb with openedAt := time })
  | .addOpenCount, cb => ((), { cb with openCount := cb.openCount + 1 })

/-- `transition_to_closed`. -/
def transitionToClosed : Body Unit := do
  let state ← ask .lockState
  if state ≠ .closed then do
    ask (.writeState .closed)
    ask (.storeFailures 0)
    ask (.storeSuccesses 0)
    ask (.storeOpenedAt none)
    ask .unlockState
  else ask .unlockState

/-- `transition_to_open`. -/
def transitionToOpen : Body Unit := do
  let state ← ask .lockState
  if state ≠ .opened then do
    ask (.writeState .opened)
    ask (.storeSuccesses 0)
    let now ← ask .now
    ask (.storeOpenedAt (some now))
    ask .addOpenCount
    ask .unlockState
  else ask .unlockState

/-- `transition_to_half_open`. -/
def transitionToHalfOpen : Body Unit := do
  let state ← ask .lockState
  if state = .opened then do
    ask (.writeState .halfOpen)
    ask (.storeSuccesses 0)
    ask .unlockState
  else ask .unlockState

section Methods

variable (config : CircuitBreakerConfig)

/-- `should_attempt_reset`. -/
def shouldAttemptReset : Body Bool := do
  match ← ask .sinceOpened with
  | some elapsed => pure (decide (config.openTimeout ≤ elapsed))
  | none => pure false

/-- `allow_request`. -/
def allowRequest : Body Bool := do
  match ← ask .readState with
  | .closed => pure true
  | .halfOpen => pure true
  | .opened => do
    let reset ← shouldAttemptReset config
    if reset then do
      transitionToHalfOpen
      pure true
    else pure false

/-- `record_success`. -/
def recordSuccess : Body Unit := do
  match ← ask .readState with
  | .closed => ask (.storeFailures 0)
  | .halfOpen => do
    let before ← ask .addSuccess
    let successes := before + 1
    if config.successThreshold ≤ successes then transitionToClosed else pure ()
  | .opened => pure ()

/-- `record_failure`. -/
def recordFailure : Body Unit := do
  match ← ask .readState with
  | .closed => do
    let before ← ask .addFailure
    let failures := before + 1
    if config.failureThreshold ≤ failures then transitionToOpen else pure ()
  | .halfOpen => transitionToOpen
  | .opened => pure ()

/-- The methods. -/
inductive Operation where
  | allowRequest
  | recordSuccess
  | recordFailure
  deriving DecidableEq

/-- A call of a method, and what it answers, if anything. -/
def Operation.body : Operation → Body (Option Bool)
  | .allowRequest => do
    let allowed ← CircuitBreaker.allowRequest config
    pure (some allowed)
  | .recordSuccess => do
    CircuitBreaker.recordSuccess config
    pure none
  | .recordFailure => do
    CircuitBreaker.recordFailure config
    pure none

/-- A call of a method while nobody else calls one. -/
def perform (now : Instant) (cb : CircuitBreaker) (operation : Operation) : Option Bool × CircuitBreaker :=
  (operation.body config).alone access now cb

end Methods

end CircuitBreaker

/-! ## The reference automaton -/

/-- How a request has ended. -/
inductive Outcome where
  | success
  | failure
  deriving DecidableEq

/-- The phase of the reference, with what has been recorded since it entered it, the newest first. -/
inductive Phase where
  | closed (recorded : List Outcome)
  | opened (since : Instant)
  | halfOpen (recorded : List Outcome)

/-- The failures recorded since the last success. -/
def failuresInARow (recorded : List Outcome) : Nat :=
  (recorded.takeWhile fun outcome => outcome = .failure).length

/-- The reference: its phase, and how many times it has opened. -/
structure Reference where
  phase : Phase := .closed []
  timesOpened : Nat := 0

namespace Reference

/-- The reference opens. -/
def opens (now : Instant) (r : Reference) : Reference := ⟨.opened now, r.timesOpened + 1⟩

section Methods

variable (config : CircuitBreakerConfig) (now : Instant) (r : Reference)

/-- Requests are admitted, but while it is open only after the timeout, when it half-opens. -/
def allow : Bool × Reference :=
  match r.phase with
  | .opened since =>
    if since + config.openTimeout ≤ now then (true, { r with phase := .halfOpen [] }) else (false, r)
  | _ => (true, r)

/-- A success: half-open it closes when there are enough of them. -/
def success : Reference :=
  match r.phase with
  | .closed recorded => { r with phase := .closed (.success :: recorded) }
  | .halfOpen recorded =>
    if (Outcome.success :: recorded).count .success = config.successThreshold.toNat then
      { r with phase := .closed [] }
    else { r with phase := .halfOpen (.success :: recorded) }
  | .opened _ => r

/-- A failure: closed it opens when there are enough of them in a row, half-open it opens at once. -/
def failure : Reference :=
  match r.phase with
  | .closed recorded =>
    if failuresInARow (.failure :: recorded) = config.failureThreshold.toNat then r.opens now
    else { r with phase := .closed (.failure :: recorded) }
  | .halfOpen _ => r.opens now
  | .opened _ => r

/-- What the reference does when a method is called. -/
def perform : CircuitBreaker.Operation → Option Bool × Reference
  | .allowRequest => (some (r.allow config now).1, (r.allow config now).2)
  | .recordSuccess => (none, r.success config)
  | .recordFailure => (none, r.failure config now)

end Methods

end Reference

/-- The state of the breaker in this phase. -/
def Phase.state : Phase → CircuitState
  | .closed _ => .closed
  | .opened _ => .opened
  | .halfOpen _ => .halfOpen

/-! ## What each method does -/

namespace CircuitBreaker

section Alone

variable {config : CircuitBreakerConfig} (now : Instant) (cb : CircuitBreaker)

/-- The breaker after it has opened. -/
def afterOpening : CircuitBreaker :=
  { cb with
    state := .opened, locked := false, successes := 0, openedAt := some now
    openCount := cb.openCount + 1 }

/-- The breaker after it has closed. -/
def afterClosing : CircuitBreaker :=
  { cb with state := .closed, locked := false, failures := 0, successes := 0, openedAt := none }

/-- The breaker after it has half-opened. -/
def afterHalfOpening : CircuitBreaker :=
  { cb with state := .halfOpen, locked := false, successes := 0 }

variable {cb}

theorem transitionToOpen_alone (h : cb.state ≠ .opened) :
    transitionToOpen.alone access now cb = ((), cb.afterOpening now) := by
  unfold transitionToOpen
  simp only [request_bind, alone_call]
  show Prog.alone access now (if cb.state ≠ .opened then _ else _) _ = _
  rw [if_pos h]
  rfl

theorem transitionToClosed_alone (h : cb.state ≠ .closed) :
    transitionToClosed.alone access now cb = ((), cb.afterClosing) := by
  unfold transitionToClosed
  simp only [request_bind, alone_call]
  show Prog.alone access now (if cb.state ≠ .closed then _ else _) _ = _
  rw [if_pos h]
  rfl

theorem transitionToHalfOpen_alone (h : cb.state = .opened) :
    transitionToHalfOpen.alone access now cb = ((), cb.afterHalfOpening) := by
  unfold transitionToHalfOpen
  simp only [request_bind, alone_call]
  show Prog.alone access now (if cb.state = .opened then _ else _) _ = _
  rw [if_pos h]
  rfl

/-- A breaker that is not open admits every request. -/
theorem perform_allowRequest (h : cb.state ≠ .opened) :
    perform config now cb .allowRequest = (some true, cb) := by
  obtain ⟨state, locked, failures, successes, openedAt, openCount⟩ := cb
  cases state with
  | closed => rfl
  | halfOpen => rfl
  | opened => exact absurd rfl h

/-- A breaker that is open half-opens, and admits, when the timeout has passed. -/
theorem perform_allowRequest_opened (h : cb.state = .opened) {since : Instant}
    (hsince : cb.openedAt = some since) :
    perform config now cb .allowRequest =
      if config.openTimeout ≤ (now - since).toNat then (some true, cb.afterHalfOpening)
      else (some false, cb) := by
  obtain ⟨state, locked, failures, successes, openedAt, openCount⟩ := cb
  obtain rfl : state = .opened := h
  obtain rfl : openedAt = some since := hsince
  show ((if decide (config.openTimeout ≤ (now - since).toNat) = true then do
      transitionToHalfOpen
      pure true
    else pure false : Body Bool) >>= fun allowed => pure (some allowed)).alone access now _ = _
  by_cases htimeout : config.openTimeout ≤ (now - since).toNat
  · rw [if_pos (decide_eq_true htimeout), if_pos htimeout, alone_bind, alone_bind,
      transitionToHalfOpen_alone now rfl]
    rfl
  · rw [if_neg (by simpa using htimeout), if_neg htimeout]
    rfl

theorem perform_recordSuccess_closed (h : cb.state = .closed) :
    perform config now cb .recordSuccess = (none, { cb with failures := 0 }) := by
  obtain ⟨state, locked, failures, successes, openedAt, openCount⟩ := cb
  obtain rfl : state = .closed := h
  rfl

theorem perform_recordSuccess_halfOpen (h : cb.state = .halfOpen) :
    perform config now cb .recordSuccess =
      if config.successThreshold ≤ cb.successes + 1 then
        (none, { cb with successes := cb.successes + 1 }.afterClosing)
      else (none, { cb with successes := cb.successes + 1 }) := by
  obtain ⟨state, locked, failures, successes, openedAt, openCount⟩ := cb
  obtain rfl : state = .halfOpen := h
  show ((if config.successThreshold ≤ successes + 1 then transitionToClosed else pure () : Body Unit) >>=
    fun _ => pure none).alone access now _ = _
  by_cases hthreshold : config.successThreshold ≤ successes + 1
  · have hleaves : CircuitState.halfOpen ≠ .closed := by decide
    rw [if_pos hthreshold, if_pos hthreshold, alone_bind, transitionToClosed_alone now hleaves]
    rfl
  · rw [if_neg hthreshold, if_neg hthreshold]
    rfl

theorem perform_recordFailure_closed (h : cb.state = .closed) :
    perform config now cb .recordFailure =
      if config.failureThreshold ≤ cb.failures + 1 then
        (none, { cb with failures := cb.failures + 1 }.afterOpening now)
      else (none, { cb with failures := cb.failures + 1 }) := by
  obtain ⟨state, locked, failures, successes, openedAt, openCount⟩ := cb
  obtain rfl : state = .closed := h
  show ((if config.failureThreshold ≤ failures + 1 then transitionToOpen else pure () : Body Unit) >>=
    fun _ => pure none).alone access now _ = _
  by_cases hthreshold : config.failureThreshold ≤ failures + 1
  · have hleaves : CircuitState.closed ≠ .opened := by decide
    rw [if_pos hthreshold, if_pos hthreshold, alone_bind, transitionToOpen_alone now hleaves]
    rfl
  · rw [if_neg hthreshold, if_neg hthreshold]
    rfl

theorem perform_recordFailure_halfOpen (h : cb.state = .halfOpen) :
    perform config now cb .recordFailure = (none, cb.afterOpening now) := by
  obtain ⟨state, locked, failures, successes, openedAt, openCount⟩ := cb
  obtain rfl : state = .halfOpen := h
  rfl

/-- What is recorded while it is open is not. -/
theorem perform_record_opened (h : cb.state = .opened) {operation : Operation}
    (hrecord : operation ≠ .allowRequest) : perform config now cb operation = (none, cb) := by
  obtain ⟨state, locked, failures, successes, openedAt, openCount⟩ := cb
  obtain rfl : state = .opened := h
  cases operation with
  | allowRequest => exact absurd rfl hrecord
  | recordSuccess => rfl
  | recordFailure => rfl

end Alone

end CircuitBreaker

/-! ## Breaker and reference -/

section Agreement

variable {config : CircuitBreakerConfig}

/-- The cells say what has been recorded since the phase was entered. -/
def CircuitBreaker.InPhase (config : CircuitBreakerConfig) (now : Instant) (cb : CircuitBreaker) :
    Phase → Prop
  | .closed recorded => cb.state = .closed ∧ cb.failures.toNat = failuresInARow recorded ∧
      failuresInARow recorded < config.failureThreshold.toNat
  | .opened since => cb.state = .opened ∧ cb.openedAt = some since ∧ since ≤ now
  | .halfOpen recorded => cb.state = .halfOpen ∧ cb.openedAt ≠ none ∧
      cb.successes.toNat = recorded.count .success ∧
      recorded.count .success < config.successThreshold.toNat

/-- The breaker, between two calls, where the reference is. -/
structure CircuitBreaker.Shows (config : CircuitBreakerConfig) (now : Instant) (cb : CircuitBreaker)
    (r : Reference) : Prop where
  unlocked : cb.locked = false
  openCount : cb.openCount = UInt64.ofNat r.timesOpened
  phase : cb.InPhase config now r.phase

/-- What is to be seen of a breaker that is where the reference is: the state, what each state implies
    for the cells, and the count of the times it has opened, in the 64 bits it has. -/
structure CircuitBreaker.Agrees (config : CircuitBreakerConfig) (cb : CircuitBreaker) (r : Reference) :
    Prop where
  state : cb.state = r.phase.state
  closed : cb.state = .closed → cb.failures < config.failureThreshold
  opened : cb.state = .opened → cb.openedAt ≠ none
  halfOpen : cb.state = .halfOpen → cb.openedAt ≠ none ∧ cb.successes < config.successThreshold
  openCount : cb.openCount = UInt64.ofNat r.timesOpened

variable {now : Instant} {cb : CircuitBreaker} {r : Reference}

theorem CircuitBreaker.Shows.agrees (h : cb.Shows config now r) : cb.Agrees config r := by
  obtain ⟨phase, timesOpened⟩ := r
  obtain ⟨-, hcount, hphase⟩ := h
  cases phase with
  | closed recorded =>
    obtain ⟨hstate, hfailures, hlt⟩ := hphase
    refine ⟨hstate, fun _ => ?_, ?_, ?_, hcount⟩
    · rw [UInt32.lt_iff_toNat_lt, hfailures]
      exact hlt
    · rw [hstate]
      nofun
    · rw [hstate]
      nofun
  | opened since =>
    obtain ⟨hstate, hsince, -⟩ := hphase
    refine ⟨hstate, ?_, fun _ => ?_, ?_, hcount⟩
    · rw [hstate]
      nofun
    · rw [hsince]
      exact Option.some_ne_none since
    · rw [hstate]
      nofun
  | halfOpen recorded =>
    obtain ⟨hstate, hopenedAt, hsuccesses, hlt⟩ := hphase
    refine ⟨hstate, ?_, fun _ => hopenedAt, fun _ => ⟨hopenedAt, ?_⟩, hcount⟩
    · rw [hstate]
      nofun
    · rw [UInt32.lt_iff_toNat_lt, hsuccesses]
      exact hlt

/-- What has passed on a clock that has not gone back is the difference. -/
theorem le_elapsed_iff (timeout : Nat) {since now : Int} (h : since ≤ now) :
    timeout ≤ (now - since).toNat ↔ since + timeout ≤ now := by omega

/-- A counter that has room counts. -/
theorem toNat_succ {n : UInt32} (h : n.toNat + 1 < 2 ^ 32) : (n + 1).toNat = n.toNat + 1 := by
  rw [UInt32.toNat_add, UInt32.toNat_one, Nat.mod_eq_of_lt h]

/-- Counting one more, where there is a larger number. -/
theorem toNat_add_one {n bound : UInt32} (h : n.toNat < bound.toNat) : (n + 1).toNat = n.toNat + 1 := by
  have hbound := bound.toNat_lt
  exact toNat_succ (by omega)

/-- One more reaches the threshold exactly when it is the threshold. -/
theorem threshold_le_add_one_iff {n threshold : UInt32} (h : n.toNat < threshold.toNat) :
    threshold ≤ n + 1 ↔ n.toNat + 1 = threshold.toNat := by
  rw [UInt32.le_iff_toNat_le, toNat_add_one h]
  omega

theorem ofNat_succ (n : Nat) : UInt64.ofNat n + 1 = UInt64.ofNat (n + 1) := by
  rw [UInt64.ofNat_add]
  rfl

/-- Time passes. -/
theorem CircuitBreaker.Shows.later (h : cb.Shows config now r) (d : Duration) :
    cb.Shows config (now + d) r := by
  refine ⟨h.unlocked, h.openCount, ?_⟩
  have hphase := h.phase
  cases hr : r.phase with
  | closed recorded => rwa [hr] at hphase
  | halfOpen recorded => rwa [hr] at hphase
  | opened since =>
    rw [hr] at hphase
    obtain ⟨hstate, hsince, hle⟩ := hphase
    exact ⟨hstate, hsince, Int.le_trans hle (Int.le_add_of_nonneg_right (Int.natCast_nonneg d))⟩

/-- A breaker that opens is where the reference is that opens. -/
theorem CircuitBreaker.Shows.opens (h : cb.openCount = UInt64.ofNat r.timesOpened) :
    (cb.afterOpening now).Shows config now (r.opens now) := by
  refine ⟨rfl, ?_, rfl, rfl, Int.le_refl now⟩
  show cb.openCount + 1 = UInt64.ofNat (r.timesOpened + 1)
  rw [h, ofNat_succ]

/-- **A request is answered alike.** -/
theorem CircuitBreaker.Shows.allowRequest (h : cb.Shows config now r) (hs : 1 ≤ config.successThreshold) :
    (perform config now cb .allowRequest).1 = (r.perform config now .allowRequest).1 ∧
      (perform config now cb .allowRequest).2.Shows config now (r.perform config now .allowRequest).2 := by
  obtain ⟨phase, timesOpened⟩ := r
  have hphase := h.phase
  cases phase with
  | closed recorded =>
    rw [perform_allowRequest now (by rw [hphase.1]; decide)]
    exact ⟨rfl, h⟩
  | halfOpen recorded =>
    rw [perform_allowRequest now (by rw [hphase.1]; decide)]
    exact ⟨rfl, h⟩
  | opened since =>
    obtain ⟨hstate, hsince, hle⟩ := hphase
    rw [perform_allowRequest_opened now hstate hsince]
    have htimeout := le_elapsed_iff config.openTimeout hle
    show _ = (some (Reference.allow config now ⟨.opened since, timesOpened⟩).1) ∧
      CircuitBreaker.Shows config now _ (Reference.allow config now ⟨.opened since, timesOpened⟩).2
    unfold Reference.allow
    dsimp only
    by_cases hpassed : since + config.openTimeout ≤ now
    · rw [if_pos (htimeout.mpr hpassed), if_pos hpassed]
      refine ⟨rfl, rfl, h.openCount, rfl, ?_, rfl, ?_⟩
      · show cb.openedAt ≠ none
        rw [hsince]
        exact Option.some_ne_none since
      · exact UInt32.le_iff_toNat_le.mp hs
    · rw [if_neg (mt htimeout.mp hpassed), if_neg hpassed]
      exact ⟨rfl, h⟩

/-- **A success leaves them alike.** -/
theorem CircuitBreaker.Shows.recordSuccess (h : cb.Shows config now r) (hf : 1 ≤ config.failureThreshold) :
    (perform config now cb .recordSuccess).1 = none ∧
      (perform config now cb .recordSuccess).2.Shows config now (r.success config) := by
  obtain ⟨phase, timesOpened⟩ := r
  have hphase := h.phase
  have hpos : 0 < config.failureThreshold.toNat := UInt32.le_iff_toNat_le.mp hf
  cases phase with
  | closed recorded =>
    rw [perform_recordSuccess_closed now hphase.1]
    exact ⟨rfl, h.unlocked, h.openCount, hphase.1, rfl, hpos⟩
  | halfOpen recorded =>
    obtain ⟨hstate, hopenedAt, hsuccesses, hlt⟩ := hphase
    rw [← hsuccesses] at hlt
    rw [perform_recordSuccess_halfOpen now hstate]
    have hcount : (Outcome.success :: recorded).count .success = cb.successes.toNat + 1 := by
      rw [List.count_cons_self, hsuccesses]
    unfold Reference.success
    dsimp only
    rw [hcount]
    by_cases hreached : cb.successes.toNat + 1 = config.successThreshold.toNat
    · rw [if_pos ((threshold_le_add_one_iff hlt).mpr hreached), if_pos hreached]
      exact ⟨rfl, rfl, h.openCount, rfl, rfl, hpos⟩
    · rw [if_neg (mt (threshold_le_add_one_iff hlt).mp hreached), if_neg hreached]
      refine ⟨rfl, h.unlocked, h.openCount, hstate, hopenedAt, ?_, ?_⟩
      · rw [hcount]
        exact toNat_add_one hlt
      · rw [hcount]
        omega
  | opened since =>
    rw [perform_record_opened now hphase.1 (by decide)]
    exact ⟨rfl, h⟩

/-- **A failure leaves them alike.** -/
theorem CircuitBreaker.Shows.recordFailure (h : cb.Shows config now r) :
    (perform config now cb .recordFailure).1 = none ∧
      (perform config now cb .recordFailure).2.Shows config now (r.failure config now) := by
  obtain ⟨phase, timesOpened⟩ := r
  have hphase := h.phase
  cases phase with
  | closed recorded =>
    obtain ⟨hstate, hfailures, hlt⟩ := hphase
    rw [← hfailures] at hlt
    rw [perform_recordFailure_closed now hstate]
    have hrow : failuresInARow (.failure :: recorded) = cb.failures.toNat + 1 := by
      rw [hfailures]
      rfl
    unfold Reference.failure
    dsimp only
    rw [hrow]
    by_cases hreached : cb.failures.toNat + 1 = config.failureThreshold.toNat
    · rw [if_pos ((threshold_le_add_one_iff hlt).mpr hreached), if_pos hreached]
      exact ⟨rfl, .opens h.openCount⟩
    · rw [if_neg (mt (threshold_le_add_one_iff hlt).mp hreached), if_neg hreached]
      refine ⟨rfl, h.unlocked, h.openCount, hstate, ?_, ?_⟩
      · rw [hrow]
        exact toNat_add_one hlt
      · rw [hrow]
        omega
  | halfOpen recorded =>
    rw [perform_recordFailure_halfOpen now hphase.1]
    exact ⟨rfl, .opens h.openCount⟩
  | opened since =>
    rw [perform_record_opened now hphase.1 (by decide)]
    exact ⟨rfl, h⟩

/-- What the clock reads after some time. -/
def later (now : Instant) (d : Duration) : Instant := now + d

/-- **The breaker simulates the reference**, whatever the clock reads. -/
theorem breaker_simulates (hf : 1 ≤ config.failureThreshold) (hs : 1 ≤ config.successThreshold) :
    Simulates (timed later (CircuitBreaker.perform config)) (timed later fun now r => r.perform config now)
      fun s t => s.2 = t.2 ∧ s.1.Shows config s.2 t.1 := by
  rintro ⟨cb, now⟩ ⟨r, _⟩ ⟨d, operation⟩ ⟨rfl, hshows⟩
  have hlater : cb.Shows config (later now d) r := hshows.later d
  cases operation with
  | allowRequest =>
    obtain ⟨hanswer, hnext⟩ := hlater.allowRequest hs
    exact ⟨hanswer, rfl, hnext⟩
  | recordSuccess =>
    obtain ⟨hanswer, hnext⟩ := hlater.recordSuccess hf
    exact ⟨hanswer, rfl, hnext⟩
  | recordFailure =>
    obtain ⟨hanswer, hnext⟩ := hlater.recordFailure
    exact ⟨hanswer, rfl, hnext⟩

end Agreement

/-- **The breaker is the reference automaton**: for thresholds of at least one, and for any sequence of
    calls one after the other, each some time after the last, it answers as the reference does and agrees
    with it in the end. -/
theorem breaker_is_reference (config : CircuitBreakerConfig) (hf : 1 ≤ config.failureThreshold)
    (hs : 1 ≤ config.successThreshold) (start : Instant)
    (calls : List (Duration × CircuitBreaker.Operation)) :
    let (answers, cb, _) := play (timed later (CircuitBreaker.perform config)) ({}, start) calls
    let (expected, r, _) := play (timed later fun now r => Reference.perform config now r) ({}, start) calls
    answers = expected ∧ cb.Agrees config r := by
  have hstart : CircuitBreaker.Shows config start {} {} :=
    ⟨rfl, rfl, rfl, rfl, UInt32.le_iff_toNat_le.mp hf⟩
  have hplay := (breaker_simulates hf hs).play (s := ({}, start)) (t := ({}, start)) ⟨rfl, hstart⟩ calls
  exact ⟨hplay.1, hplay.2.2.agrees⟩

/-- Five failures in a row, a request at once and one after half a minute, and two successes. -/
def outage : List (Duration × CircuitBreaker.Operation) :=
  List.replicate 5 (0, .recordFailure) ++
    [(0, .allowRequest), (fromSecs 30, .allowRequest), (0, .recordSuccess), (0, .recordSuccess)]

/-- A breaker as it is by default refuses the first request and admits the second, and closes again. -/
theorem breaker_survives_outage :
    let (answers, cb, _) := play (timed later (CircuitBreaker.perform {})) ({}, 0) outage
    let (_, r, _) := play (timed later fun now r => Reference.perform {} now r) ({}, 0) outage
    answers = [none, none, none, none, none, some false, some true, none, none] ∧ cb.Agrees {} r :=
  ⟨rfl, (breaker_is_reference {} (by decide) (by decide) 0 outage).2⟩

end Smppd.Cluster
