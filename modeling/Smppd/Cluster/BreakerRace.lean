/-
  The circuit breaker under CONCURRENT callers.

  Any number of tasks call `allow_request`, `record_success` and `record_failure` on one breaker and are
  interleaved at their accesses to its cells.  A method looks at the state under the read lock, lets go,
  and takes the write lock later to make its transition; so a transition can be made for a state that is
  gone.

  Two of the three transitions look again under the write lock and do nothing when the state is not the
  one they are for: `transition_to_half_open` wants Open, `transition_to_open` anything else.  But

  * `transition_to_closed` wants anything but Closed, so a success that was counted in HalfOpen closes a
    breaker that a failure has opened meanwhile;
  * Open is not always the SAME Open: a request that found the old timeout passed half-opens a breaker
    that has been opened again just now.

  In both the task is OVERTAKEN: the breaker has been opened since it read the state, and is still open.
  `open_left_properly_iff` says that these two are all there is: Open is left properly, to HalfOpen and
  after the timeout, exactly in the runs in which no transition is made by a task that is overtaken.
-/
import Smppd.Lib.Machine
import Smppd.Cluster.CircuitBreaker

set_option linter.unusedVariables false

namespace Smppd.Cluster.BreakerRace

open Smppd.Store Prog Machine CircuitBreaker

/-! ## Any number of callers -/

/-- A task that calls methods of the breaker. -/
abbrev Tid := Nat

/-- The breaker and the time, and for the specification: when it last opened and how often it has, and how
    often it had when each task last read the state. -/
structure Shared where
  cb : CircuitBreaker
  now : Instant
  openSince : Instant
  openings : Nat := 0
  seen : Tid → Nat := fun _ => 0

/-- What an access of the task does. -/
def perform (t : Tid) (call : CircuitBreaker.Call) (w : Shared) : call.Res × Shared :=
  let (answer, cb) := access w.now call w.cb
  (answer, match call with
    | .readState => { w with cb := cb, seen := Function.update w.seen t w.openings }
    | .writeState .opened => { w with cb := cb, openSince := w.now, openings := w.openings + 1 }
    | _ => { w with cb := cb })

/-- The access waits for the lock of the state. -/
def Shared.blocked (w : Shared) : CircuitBreaker.Call → Bool
  | .readState => w.cb.locked
  | .lockState => w.cb.locked
  | _ => false

/-- The breaker and what is left of the call of each task. -/
abbrev System := Pool CircuitBreaker.Call CircuitBreaker.Call.Res Tid Shared

/-- What can happen next. -/
inductive Move where
  /-- Time passes. -/
  | wait (d : Duration)
  /-- A task that is free calls a method. -/
  | start (t : Tid) (operation : Operation)
  /-- A task makes its next access. -/
  | call (t : Tid)

/-- A new breaker, that nobody has called yet. -/
def System.start (now : Instant) : System := ⟨{ cb := {}, now := now, openSince := now }, fun _ => .ret ()⟩

section System

variable (config : CircuitBreakerConfig)

/-- The body of a call, the answer of which goes to the caller. -/
def callBody (operation : Operation) : Body Unit := do
  let _ ← operation.body config
  pure ()

/-- The next access of the task does not wait. -/
def enabled (c : System) (t : Tid) : Bool :=
  match c.task t with
  | .ret _ => false
  | .call op _ => !c.state.blocked op

/-- One step of the callers. -/
def step (c : System) : Move → Option System
  | .wait d => some ⟨{ c.state with now := c.state.now + d }, c.task⟩
  | .start t operation =>
    if (c.task t).idle then
      some ⟨c.state, Function.update c.task t (callBody config operation)⟩
    else none
  | .call t => if enabled c t then c.advance perform t t else none

/-! ## Leaving Open -/

/-- A breaker that leaves Open goes to HalfOpen, and has been open for the timeout. -/
def LeavesProperly (c c' : System) : Prop :=
  c.state.cb.state = .opened → c'.state.cb.state ≠ .opened →
    c'.state.cb.state = .halfOpen ∧ c.state.openSince + config.openTimeout ≤ c.state.now

/-- The breaker has been opened since the task read the state, and still is; if the task is to half-open
    it, it has not been open for the timeout. -/
def Overtaken (w : Shared) (t : Tid) (target : CircuitState) : Prop :=
  w.cb.state = .opened ∧ w.seen t < w.openings ∧
    (target = .halfOpen → w.now < w.openSince + config.openTimeout)

/-- The step is not a transition of a task that is overtaken. -/
def NotOvertaken (c : System) : Move → Prop
  | .call t => ∀ target k, c.task t = .call (.writeState target) k → ¬ Overtaken config c.state t target
  | _ => True

end System

/-! ## What the methods do -/

/-- What a task has taken the write lock for. -/
inductive Purpose where
  | closing
  | halfOpening
  | opening

/-- The state a purpose leads to. -/
def Purpose.target : Purpose → CircuitState
  | .closing => .closed
  | .halfOpening => .halfOpen
  | .opening => .opened

/-- The state that the lock has shown is one to leave for this purpose. -/
def Purpose.Leaves : Purpose → CircuitState → Prop
  | .closing, s => s ≠ .closed
  | .halfOpening, s => s = .opened
  | .opening, s => s ≠ .opened

/-- Where a task is in its call. -/
inductive Stage where
  | free
  /-- It has read HalfOpen. -/
  | sawHalfOpen
  /-- It has read Open. -/
  | sawOpened
  /-- It has read Open, and the timeout had passed. -/
  | ripe
  /-- It has the lock, under which it has read this state. -/
  | holding (state : CircuitState) (purpose : Purpose)
  /-- It has written Open. -/
  | opening
  /-- It has looked at the clock after that. -/
  | stamped (time : Instant)
  /-- It has written Closed. -/
  | clearing
  /-- It has the lock, and nothing more to write that matters. -/
  | done

/-- The task has the lock. -/
def Stage.Holds : Stage → Prop
  | .holding _ _ => True
  | .opening => True
  | .stamped _ => True
  | .clearing => True
  | .done => True
  | _ => False

/-- What each purpose needs a task to have seen. -/
def Purpose.Warranted : Purpose → Stage → Prop
  | .closing, g => g = .sawHalfOpen
  | .halfOpening, g => g = .ripe
  | .opening, g => g = .free ∨ g = .sawHalfOpen

/-- Where a task is after it has written the state. -/
def Purpose.after : Purpose → Stage
  | .closing => .clearing
  | .halfOpening => .done
  | .opening => .opening

/-- What each access needs, and where it leads. -/
def calls (config : CircuitBreakerConfig) : Spec CircuitBreaker.Call CircuitBreaker.Call.Res Stage
  | .readState, post, g =>
    g = .free ∧ post .closed .free ∧ post .halfOpen .sawHalfOpen ∧ post .opened .sawOpened
  | .sinceOpened, post, g =>
    g = .sawOpened ∧ post none .free ∧
      ∀ elapsed, post (some elapsed) (if config.openTimeout ≤ elapsed then .ripe else .free)
  | .lockState, post, g => ∃ purpose : Purpose, purpose.Warranted g ∧ ∀ s, post s (.holding s purpose)
  | .writeState target, post, g => ∃ s purpose, g = .holding s purpose ∧ target = purpose.target ∧
      purpose.Leaves s ∧ post () purpose.after
  | .unlockState, post, g => ((∃ s purpose, g = .holding s purpose) ∨ g = .clearing ∨ g = .done) ∧
      post () .free
  | .now, post, g => g = .opening ∧ ∀ time, post time (.stamped time)
  | .storeOpenedAt time, post, g => (g = .clearing ∧ time = none ∧ post () .clearing) ∨
      ∃ stamp, g = .stamped stamp ∧ time = some stamp ∧ post () .done
  | .addFailure, post, g => ∀ n, post n g
  | .addSuccess, post, g => ∀ n, post n g
  | .storeFailures _, post, g => post () g
  | .storeSuccesses _, post, g => post () g
  | .addOpenCount, post, g => post () g

section Bodies

variable {config : CircuitBreakerConfig} {post : Unit → Stage → Prop}

theorem wp_transitionToClosed (hpost : post () .free) :
    transitionToClosed.wp (calls config) post .sawHalfOpen := by
  refine ⟨.closing, rfl, fun s => ?_⟩
  cases s with
  | closed => exact ⟨Or.inl ⟨_, _, rfl⟩, hpost⟩
  | opened =>
    exact ⟨_, _, rfl, rfl, CircuitState.noConfusion, Or.inl ⟨rfl, rfl, Or.inr (Or.inl rfl), hpost⟩⟩
  | halfOpen =>
    exact ⟨_, _, rfl, rfl, CircuitState.noConfusion, Or.inl ⟨rfl, rfl, Or.inr (Or.inl rfl), hpost⟩⟩

theorem wp_transitionToOpen {g : Stage} (hg : Purpose.opening.Warranted g) (hpost : post () .free) :
    transitionToOpen.wp (calls config) post g := by
  refine ⟨.opening, hg, fun s => ?_⟩
  cases s with
  | opened => exact ⟨Or.inl ⟨_, _, rfl⟩, hpost⟩
  | closed =>
    exact ⟨_, _, rfl, rfl, CircuitState.noConfusion, rfl, fun time =>
      Or.inr ⟨time, rfl, rfl, Or.inr (Or.inr rfl), hpost⟩⟩
  | halfOpen =>
    exact ⟨_, _, rfl, rfl, CircuitState.noConfusion, rfl, fun time =>
      Or.inr ⟨time, rfl, rfl, Or.inr (Or.inr rfl), hpost⟩⟩

theorem wp_transitionToHalfOpen (hpost : post () .free) :
    transitionToHalfOpen.wp (calls config) post .ripe := by
  refine ⟨.halfOpening, rfl, fun s => ?_⟩
  cases s with
  | opened => exact ⟨_, _, rfl, rfl, rfl, Or.inr (Or.inr rfl), hpost⟩
  | closed => exact ⟨Or.inl ⟨_, _, rfl⟩, hpost⟩
  | halfOpen => exact ⟨Or.inl ⟨_, _, rfl⟩, hpost⟩

theorem wp_allowRequest {post : Bool → Stage → Prop} (hpost : ∀ allowed g, ¬ g.Holds → post allowed g) :
    (allowRequest config).wp (calls config) post .free := by
  refine ⟨rfl, hpost true .free id, hpost true .sawHalfOpen id, ?_⟩
  refine ⟨rfl, hpost false .free id, fun elapsed => ?_⟩
  by_cases htimeout : config.openTimeout ≤ elapsed
  · rw [if_pos htimeout]
    show Prog.wp (calls config) (if decide (config.openTimeout ≤ elapsed) = true then do
        transitionToHalfOpen
        pure true
      else pure false) post .ripe
    rw [if_pos (decide_eq_true htimeout), wp_bind]
    exact wp_transitionToHalfOpen (hpost true .free id)
  · rw [if_neg htimeout]
    show Prog.wp (calls config) (if decide (config.openTimeout ≤ elapsed) = true then do
        transitionToHalfOpen
        pure true
      else pure false) post .free
    rw [if_neg (by simpa using htimeout)]
    exact hpost false .free id

theorem wp_recordSuccess (hpost : ∀ g, ¬ g.Holds → post () g) :
    (recordSuccess config).wp (calls config) post .free := by
  refine ⟨rfl, hpost .free id, fun before => ?_, hpost .sawOpened id⟩
  show Prog.wp (calls config)
    (if config.successThreshold ≤ before + 1 then transitionToClosed else pure ()) post .sawHalfOpen
  by_cases hthreshold : config.successThreshold ≤ before + 1
  · rw [if_pos hthreshold]
    exact wp_transitionToClosed (hpost .free id)
  · rw [if_neg hthreshold]
    exact hpost .sawHalfOpen id

theorem wp_recordFailure (hpost : ∀ g, ¬ g.Holds → post () g) :
    (recordFailure config).wp (calls config) post .free := by
  refine ⟨rfl, fun before => ?_, wp_transitionToOpen (Or.inr rfl) (hpost .free id), hpost .sawOpened id⟩
  show Prog.wp (calls config)
    (if config.failureThreshold ≤ before + 1 then transitionToOpen else pure ()) post .free
  by_cases hthreshold : config.failureThreshold ≤ before + 1
  · rw [if_pos hthreshold]
    exact wp_transitionToOpen (Or.inl rfl) (hpost .free id)
  · rw [if_neg hthreshold]
    exact hpost .free id

/-- **Every method makes its transition for what it has seen**, under the lock, and lets go of it. -/
theorem wp_callBody (operation : Operation) :
    (callBody config operation).wp (calls config) (fun _ g => ¬ g.Holds) .free := by
  unfold callBody
  rw [wp_bind]
  cases operation with
  | allowRequest =>
    refine (wp_bind _ _ _ _ _).mpr (wp_allowRequest fun allowed g hg => hg)
  | recordSuccess =>
    refine (wp_bind _ _ _ _ _).mpr (wp_recordSuccess fun g hg => hg)
  | recordFailure =>
    refine (wp_bind _ _ _ _ _).mpr (wp_recordFailure fun g hg => hg)

end Bodies

/-! ## What holds in every interleaving -/

/-- What a task knows by what it has seen, for as long as the breaker has not opened since: the one that
    saw HalfOpen, that it is not Open; the one that saw Open, that if it still is, the time it opened has
    been written; and the one that found the timeout passed, that it has. -/
def Knows (config : CircuitBreakerConfig) (w : Shared) : Stage → Prop
  | .sawHalfOpen => w.cb.state ≠ .opened
  | .holding _ .closing => w.cb.state ≠ .opened
  | .sawOpened => w.cb.state = .opened → ∃ time, w.cb.openedAt = some time ∧ w.openSince ≤ time
  | .ripe => w.cb.state = .opened → w.openSince + config.openTimeout ≤ w.now
  | .holding _ .halfOpening => w.cb.state = .opened → w.openSince + config.openTimeout ≤ w.now
  | _ => True

/-- What a task that has the lock can rely on. -/
def Keeps (w : Shared) : Stage → Prop
  | .holding s _ => w.cb.state = s
  | .clearing => w.cb.state ≠ .opened
  | .stamped time => w.openSince ≤ time
  | _ => True

/-- The task is between writing Open and writing the time. -/
def Stage.Opening : Stage → Prop
  | .opening => True
  | .stamped _ => True
  | _ => False

/-- At most one task has the lock; every task knows what it has seen, unless the breaker has opened since;
    and while it is Open, and nobody is just opening it, the time it opened is there. -/
structure Guarded (config : CircuitBreakerConfig) (w : Shared) (γ : Tid → Stage) : Prop where
  unlocked : w.cb.locked = false → ∀ t, ¬ (γ t).Holds
  unique : ∀ t t', (γ t).Holds → (γ t').Holds → t = t'
  seen : ∀ t, w.seen t ≤ w.openings
  knows : ∀ t, w.seen t = w.openings → Knows config w (γ t)
  keeps : ∀ t, Keeps w (γ t)
  openedAt : w.cb.state = .opened → (∀ t, ¬ (γ t).Opening) →
    ∃ time, w.cb.openedAt = some time ∧ w.openSince ≤ time
  time : w.openSince ≤ w.now

variable {config : CircuitBreakerConfig} {w w' : Shared} {γ : Tid → Stage} {t : Tid} {g : Stage}

/-- Who is opening has the lock. -/
theorem Stage.Opening.holds (h : g.Opening) : g.Holds := by
  cases g <;> first | exact trivial | exact h.elim

/-- What a task that has the lock may assume of the others. -/
theorem Guarded.alone (h : Guarded config w γ) (ht : (γ t).Holds) {t' : Tid} (hne : t' ≠ t) :
    ¬ (γ t').Holds := fun ht' => hne (h.unique t' t ht' ht)

/-- What one task does, as far as the others can tell. -/
structure Evolves (w w' : Shared) : Prop where
  now : w.now ≤ w'.now
  grows : w.openings ≤ w'.openings
  since : w'.openings = w.openings → w'.openSince = w.openSince
  opened : w'.openings = w.openings → w'.cb.state = .opened → w.cb.state = .opened
  openedAt : w'.openings = w.openings → w'.cb.state = .opened →
    ∀ time, w.cb.openedAt = some time → w.openSince ≤ time →
      ∃ time', w'.cb.openedAt = some time' ∧ w.openSince ≤ time'

/-- **What a task knows it goes on knowing** until the breaker opens again. -/
theorem Knows.mono (hevolves : Evolves w w') (hsame : w'.openings = w.openings)
    (h : Knows config w g) : Knows config w' g := by
  have hsince := hevolves.since hsame
  have hopened := hevolves.opened hsame
  have hripe : (w.cb.state = .opened → w.openSince + config.openTimeout ≤ w.now) →
      w'.cb.state = .opened → w'.openSince + config.openTimeout ≤ w'.now := by
    intro hpassed hstate
    rw [hsince]
    exact Int.le_trans (hpassed (hopened hstate)) hevolves.now
  cases g with
  | sawHalfOpen => exact fun hstate => h (hopened hstate)
  | sawOpened =>
    intro hstate
    obtain ⟨time, htime, hle⟩ := h (hopened hstate)
    rw [hsince]
    exact hevolves.openedAt hsame hstate time htime hle
  | ripe => exact hripe h
  | holding s purpose =>
    cases purpose with
    | closing => exact fun hstate => h (hopened hstate)
    | halfOpening => exact hripe h
    | opening => trivial
  | _ => trivial

/-- One task moves on: what has to be said of it, and of what it leaves to the others. -/
theorem Guarded.move (h : Guarded config w γ) (hevolves : Evolves w w')
    (hothers : ∀ t', t' ≠ t → w'.seen t' = w.seen t')
    (hseen : w'.seen t ≤ w'.openings) (hknows : w'.seen t = w'.openings → Knows config w' g)
    (hkeeps : Keeps w' g) (hkeepsOthers : ∀ t', t' ≠ t → Keeps w' (γ t'))
    (hunlocked : w'.cb.locked = false → ¬ g.Holds ∧ ∀ t', t' ≠ t → ¬ (γ t').Holds)
    (hunique : g.Holds → ∀ t', t' ≠ t → ¬ (γ t').Holds)
    (hopenedAt : w'.cb.state = .opened → ¬ g.Opening → (∀ t', t' ≠ t → ¬ (γ t').Opening) →
      ∃ time, w'.cb.openedAt = some time ∧ w'.openSince ≤ time)
    (htime : w'.openSince ≤ w'.now) : Guarded config w' (Function.update γ t g) := by
  have hself : Function.update γ t g t = g := Function.update_self t g γ
  have hother : ∀ t', t' ≠ t → Function.update γ t g t' = γ t' := fun t' hne =>
    Function.update_of_ne hne g γ
  refine ⟨fun hlocked t' => ?_, unique_update h.unique hunique, fun t' => ?_, fun t' hfresh => ?_,
    fun t' => ?_, fun hstate hnobody => hopenedAt hstate ?_ fun t' hne => ?_, htime⟩
  · by_cases heq : t' = t
    · subst heq
      rw [hself]
      exact (hunlocked hlocked).1
    · rw [hother t' heq]
      exact (hunlocked hlocked).2 t' heq
  · by_cases heq : t' = t
    · subst heq
      exact hseen
    · rw [hothers t' heq]
      exact Nat.le_trans (h.seen t') hevolves.grows
  · by_cases heq : t' = t
    · subst heq
      rw [hself]
      exact hknows hfresh
    · rw [hother t' heq]
      rw [hothers t' heq] at hfresh
      have hle := h.seen t'
      have hgrows := hevolves.grows
      have hsame : w'.openings = w.openings := by omega
      exact (h.knows t' (hfresh.trans hsame)).mono hevolves hsame
  · by_cases heq : t' = t
    · subst heq
      rw [hself]
      exact hkeeps
    · rw [hother t' heq]
      exact hkeepsOthers t' heq
  · have hnot := hnobody t
    rwa [hself] at hnot
  · have hnot := hnobody t'
    rwa [hother t' hne] at hnot

/-- The lock, the state, the times and the openings are as they were. -/
structure Quiet (w w' : Shared) : Prop where
  state : w'.cb.state = w.cb.state
  locked : w'.cb.locked = w.cb.locked
  openedAt : w'.cb.openedAt = w.cb.openedAt
  now : w'.now = w.now
  openSince : w'.openSince = w.openSince
  openings : w'.openings = w.openings

theorem Quiet.evolves (h : Quiet w w') : Evolves w w' := by
  refine ⟨Int.le_of_eq h.now.symm, Nat.le_of_eq h.openings.symm, fun _ => h.openSince,
    fun _ hstate => h.state.symm.trans hstate, fun _ _ time htime hle => ⟨time, ?_, hle⟩⟩
  exact h.openedAt.trans htime

theorem Keeps.quiet (h : Keeps w g) (hstate : w'.cb.state = w.cb.state)
    (hsince : w'.openSince = w.openSince) : Keeps w' g := by
  cases g with
  | holding s purpose => exact hstate.trans h
  | clearing => exact fun hopened => h (hstate.symm.trans hopened)
  | stamped time => exact Int.le_trans (Int.le_of_eq hsince) h
  | _ => trivial

/-- A step that leaves the lock and what it guards alone. -/
theorem Guarded.quiet (h : Guarded config w γ) (hquiet : Quiet w w')
    (hothers : ∀ t', t' ≠ t → w'.seen t' = w.seen t') (hseen : w'.seen t ≤ w'.openings)
    (hknows : w'.seen t = w'.openings → Knows config w' g) (hkeeps : Keeps w' g)
    (hholds : g.Holds → (γ t).Holds) (hopening : (γ t).Opening → g.Opening) :
    Guarded config w' (Function.update γ t g) := by
  refine h.move hquiet.evolves hothers hseen hknows hkeeps
    (fun t' _ => (h.keeps t').quiet hquiet.state hquiet.openSince) (fun hlocked => ?_)
    (fun hg t' hne => h.alone (hholds hg) hne) (fun hstate hg hnobody => ?_) ?_
  · have hnobody := h.unlocked (hquiet.locked.symm.trans hlocked)
    exact ⟨fun hg => hnobody t (hholds hg), fun t' _ => hnobody t'⟩
  · obtain ⟨time, htime, hle⟩ := h.openedAt (hquiet.state.symm.trans hstate) fun t' => by
      by_cases heq : t' = t
      · subst heq
        exact fun hopen => hg (hopening hopen)
      · exact hnobody t' heq
    exact ⟨time, hquiet.openedAt.trans htime, Int.le_trans (Int.le_of_eq hquiet.openSince) hle⟩
  · rw [hquiet.openSince, hquiet.now]
    exact h.time

/-! ## Every access -/

/-- A task without the lock relies on nothing it guards. -/
theorem keeps_of_not_holds (hg : ¬ g.Holds) : Keeps w g := by
  cases g <;> first | exact trivial | exact absurd trivial hg

/-- A step of the counters concerns nobody. -/
theorem Guarded.counters (h : Guarded config w γ) (t : Tid) (hquiet : Quiet w w')
    (hseen : w'.seen = w.seen) : Guarded config w' (Function.update γ t (γ t)) := by
  refine h.quiet hquiet (fun t' _ => by rw [hseen]) ?_ (fun hfresh => ?_) ?_ id id
  · rw [hseen, hquiet.openings]
    exact h.seen t
  · rw [hseen, hquiet.openings] at hfresh
    exact (h.knows t hfresh).mono hquiet.evolves hquiet.openings
  · exact (h.keeps t).quiet hquiet.state hquiet.openSince

/-- The state is read, while nobody has the lock. -/
theorem Guarded.readState (h : Guarded config w γ) (hfree : w.cb.locked = false) (ht : γ t = .free)
    (hknows : Knows config w g) (hg : ¬ g.Holds) :
    Guarded config (perform t .readState w).2 (Function.update γ t g) := by
  refine h.quiet ⟨rfl, rfl, rfl, rfl, rfl, rfl⟩ (fun t' hne => Function.update_of_ne hne _ _) ?_
    (fun _ => ?_) (keeps_of_not_holds hg) (fun hholds => absurd hholds hg) ?_
  · show Function.update w.seen t w.openings t ≤ w.openings
    rw [Function.update_self]
  · exact hknows.mono (Quiet.evolves ⟨rfl, rfl, rfl, rfl, rfl, rfl⟩) rfl
  · rw [ht]
    exact False.elim

/-- The lock is taken, while nobody has it. -/
theorem Guarded.lockState (h : Guarded config w γ) (hfree : w.cb.locked = false) {purpose : Purpose}
    (hwarranted : purpose.Warranted (γ t)) :
    Guarded config (perform t .lockState w).2
      (Function.update γ t (.holding w.cb.state purpose)) := by
  have hnobody := h.unlocked hfree
  have hquiet : Evolves w (perform t .lockState w).2 :=
    ⟨Int.le_refl _, Nat.le_refl _, fun _ => rfl, fun _ hs => hs, fun _ _ time htime hle => ⟨time, htime, hle⟩⟩
  refine h.move hquiet (fun _ _ => rfl) (h.seen t) (fun hfresh => ?_) rfl
    (fun t' _ => keeps_of_not_holds (hnobody t')) nofun (fun _ t' _ => hnobody t')
    (fun hstate _ hothers => ?_) h.time
  · -- what it has seen warrants what it takes the lock for
    have hknows := h.knows t hfresh
    cases purpose with
    | closing =>
      have ht : γ t = .sawHalfOpen := hwarranted
      rw [ht] at hknows
      exact hknows
    | halfOpening =>
      have ht : γ t = .ripe := hwarranted
      rw [ht] at hknows
      exact hknows
    | opening => trivial
  · exact h.openedAt hstate fun t' hopening => hnobody t' hopening.holds

/-- The state is written for a purpose other than opening. -/
theorem Guarded.leave (h : Guarded config w γ) (ht : (γ t).Holds) {target : CircuitState}
    (htarget : target ≠ .opened) (hg : g.Holds) (hknows : ∀ w, Knows config w g)
    (hkeeps : ∀ w, w.cb.state = target → Keeps w g) :
    Guarded config (perform t (.writeState target) w).2 (Function.update γ t g) := by
  have hsame : (perform t (.writeState target) w).2 = { w with cb := { w.cb with state := target } } := by
    cases target with
    | opened => exact absurd rfl htarget
    | _ => rfl
  rw [hsame]
  refine h.move ⟨Int.le_refl _, Nat.le_refl _, fun _ => rfl, fun _ hs => absurd hs htarget,
      fun _ hs => absurd hs htarget⟩ (fun _ _ => rfl) (h.seen t) (fun _ => hknows _) (hkeeps _ rfl)
    (fun t' hne => keeps_of_not_holds (h.alone ht hne)) (fun hlocked => ?_)
    (fun _ t' hne => h.alone ht hne) (fun hs => absurd hs htarget) h.time
  exact absurd ht (h.unlocked hlocked t)

/-- The breaker opens: nobody has seen this. -/
theorem Guarded.opens (h : Guarded config w γ) (ht : (γ t).Holds) :
    Guarded config (perform t (.writeState .opened) w).2 (Function.update γ t .opening) := by
  refine h.move ⟨Int.le_refl _, Nat.le_succ _, fun heq => absurd heq (Nat.succ_ne_self _),
      fun heq => absurd heq (Nat.succ_ne_self _), fun heq => absurd heq (Nat.succ_ne_self _)⟩
    (fun _ _ => rfl) (Nat.le_succ_of_le (h.seen t)) (fun _ => trivial) trivial
    (fun t' hne => keeps_of_not_holds (h.alone ht hne)) (fun hlocked => ?_)
    (fun _ t' hne => h.alone ht hne) (fun _ hg => absurd trivial hg) (Int.le_refl _)
  exact absurd ht (h.unlocked hlocked t)

/-- The lock is let go. -/
theorem Guarded.unlockState (h : Guarded config w γ) (ht : (γ t).Holds) (hnot : ¬ (γ t).Opening) :
    Guarded config (perform t .unlockState w).2 (Function.update γ t .free) := by
  refine h.move ⟨Int.le_refl _, Nat.le_refl _, fun _ => rfl, fun _ hs => hs,
      fun _ _ time htime hle => ⟨time, htime, hle⟩⟩ (fun _ _ => rfl) (h.seen t) (fun _ => trivial) trivial
    (fun t' hne => keeps_of_not_holds (h.alone ht hne)) (fun _ => ⟨id, fun t' hne => h.alone ht hne⟩)
    False.elim (fun hstate _ hothers => h.openedAt hstate fun t' => ?_) h.time
  by_cases heq : t' = t
  · subst heq
    exact hnot
  · exact hothers t' heq

/-- The time is written by a task that has the lock. -/
theorem Guarded.storeOpenedAt (h : Guarded config w γ) (ht : (γ t).Holds) {time : Option Instant}
    (hg : g.Holds) (hknows : ∀ w, Knows config w g) (hkeeps : ∀ w', w'.cb.state = w.cb.state → Keeps w' g)
    (htime : w.cb.state = .opened → ∃ stamp, time = some stamp ∧ w.openSince ≤ stamp) :
    Guarded config (perform t (.storeOpenedAt time) w).2 (Function.update γ t g) := by
  refine h.move ⟨Int.le_refl _, Nat.le_refl _, fun _ => rfl, fun _ hs => hs, fun _ hs _ _ _ => htime hs⟩
    (fun _ _ => rfl) (h.seen t) (fun _ => hknows _) (hkeeps _ rfl)
    (fun t' hne => keeps_of_not_holds (h.alone ht hne)) (fun hlocked => ?_)
    (fun _ t' hne => h.alone ht hne) (fun hs _ _ => htime hs) h.time
  exact absurd ht (h.unlocked hlocked t)

/-- What a clock shows of a timeout that has passed since some time after the breaker opened. -/
theorem timeout_passed {since stamp now : Int} {timeout : Nat} (hstamp : since ≤ stamp)
    (hnow : since ≤ now) (h : timeout ≤ (now - stamp).toNat) : since + timeout ≤ now := by omega

/-- **Every access keeps the invariant**, if it need not wait. -/
theorem Guarded.perform (h : Guarded config w γ) {call : CircuitBreaker.Call}
    {post : call.Res → Stage → Prop} (hcall : calls config call post (γ t))
    (hfree : w.blocked call = false) :
    ∃ g, post (perform t call w).1 g ∧ Guarded config (perform t call w).2 (Function.update γ t g) := by
  cases call with
  | readState =>
    obtain ⟨ht, hclosed, hhalfOpen, hopened⟩ := hcall
    show ∃ g, post w.cb.state g ∧ _
    cases hstate : w.cb.state with
    | closed => exact ⟨_, hclosed, h.readState hfree ht trivial id⟩
    | halfOpen =>
      refine ⟨_, hhalfOpen, h.readState hfree ht ?_ id⟩
      show w.cb.state ≠ .opened
      rw [hstate]
      decide
    | opened =>
      exact ⟨_, hopened, h.readState hfree ht
        (fun hs => h.openedAt hs fun t' hopening => h.unlocked hfree t' hopening.holds) id⟩
  | sinceOpened =>
    obtain ⟨ht, hnone, hsome⟩ := hcall
    have hquiet : Quiet w w := ⟨rfl, rfl, rfl, rfl, rfl, rfl⟩
    have hnotOpening : ¬ (γ t).Opening := by
      rw [ht]
      exact id
    show ∃ g, post (w.cb.openedAt.map fun openedAt => (w.now - openedAt).toNat) g ∧ _
    cases hopenedAt : w.cb.openedAt with
    | none =>
      exact ⟨_, hnone, h.quiet hquiet (fun _ _ => rfl) (h.seen t) (fun _ => trivial) trivial
        False.elim fun hopening => absurd hopening hnotOpening⟩
    | some stamp =>
      refine ⟨_, hsome _, h.quiet hquiet (fun _ _ => rfl) (h.seen t) (fun hfresh => ?_)
        (keeps_of_not_holds ?_) (fun hholds => ?_) fun hopening => absurd hopening hnotOpening⟩
      · split
        · rename_i hpassed
          intro hstate
          have hknows := h.knows t hfresh
          rw [ht] at hknows
          obtain ⟨time, htime, hle⟩ := hknows hstate
          obtain rfl := Option.some.inj (hopenedAt.symm.trans htime)
          exact timeout_passed hle h.time hpassed
        · trivial
      · split <;> exact id
      · split at hholds <;> exact hholds.elim
  | lockState =>
    obtain ⟨purpose, hwarranted, hpost⟩ := hcall
    exact ⟨_, hpost _, h.lockState hfree hwarranted⟩
  | writeState target =>
    obtain ⟨s, purpose, ht, rfl, hleaves, hpost⟩ := hcall
    have hholds : (γ t).Holds := by
      rw [ht]
      trivial
    refine ⟨_, hpost, ?_⟩
    cases purpose with
    | closing =>
      exact h.leave hholds (by decide) trivial (fun _ => trivial) fun w' hs => by
        show w'.cb.state ≠ .opened
        rw [hs]
        decide
    | halfOpening => exact h.leave hholds (by decide) trivial (fun _ => trivial) fun _ _ => trivial
    | opening => exact h.opens hholds
  | unlockState =>
    obtain ⟨ht, hpost⟩ := hcall
    refine ⟨_, hpost, h.unlockState ?_ ?_⟩
    · rcases ht with ⟨s, purpose, ht⟩ | ht | ht <;> rw [ht] <;> trivial
    · rcases ht with ⟨s, purpose, ht⟩ | ht | ht <;> rw [ht] <;> exact id
  | now =>
    obtain ⟨ht, hpost⟩ := hcall
    refine ⟨_, hpost _, h.quiet ⟨rfl, rfl, rfl, rfl, rfl, rfl⟩ (fun _ _ => rfl) (h.seen t)
      (fun _ => trivial) h.time (fun _ => ?_) fun _ => trivial⟩
    rw [ht]
    trivial
  | storeOpenedAt time =>
    rcases hcall with ⟨ht, rfl, hpost⟩ | ⟨stamp, ht, rfl, hpost⟩
    · have hkeeps := h.keeps t
      rw [ht] at hkeeps
      refine ⟨_, hpost, h.storeOpenedAt (by rw [ht]; trivial) trivial (fun _ => trivial)
        (fun w' hs => ?_) fun hs => absurd hs hkeeps⟩
      show w'.cb.state ≠ .opened
      rw [hs]
      exact hkeeps
    · have hkeeps := h.keeps t
      rw [ht] at hkeeps
      exact ⟨_, hpost, h.storeOpenedAt (by rw [ht]; trivial) trivial (fun _ => trivial)
        (fun _ _ => trivial) fun _ => ⟨stamp, rfl, hkeeps⟩⟩
  | addFailure => exact ⟨_, hcall _, h.counters t ⟨rfl, rfl, rfl, rfl, rfl, rfl⟩ rfl⟩
  | addSuccess => exact ⟨_, hcall _, h.counters t ⟨rfl, rfl, rfl, rfl, rfl, rfl⟩ rfl⟩
  | storeFailures n => exact ⟨_, hcall, h.counters t ⟨rfl, rfl, rfl, rfl, rfl, rfl⟩ rfl⟩
  | storeSuccesses n => exact ⟨_, hcall, h.counters t ⟨rfl, rfl, rfl, rfl, rfl, rfl⟩ rfl⟩
  | addOpenCount => exact ⟨_, hcall, h.counters t ⟨rfl, rfl, rfl, rfl, rfl, rfl⟩ rfl⟩

/-! ## Runs -/

variable {c c' : System}

/-- Every task keeps its specification, and the invariant holds. -/
def Kept (config : CircuitBreakerConfig) (c : System) : Prop :=
  ∃ γ, Pledged (fun _ => calls config) (fun _ g => ¬ g.Holds) (Guarded config) c γ

theorem kept_start (now : Instant) : Kept config (.start now) := by
  refine ⟨fun _ => .free, ⟨fun _ _ => id, nofun, fun _ => Nat.le_refl 0, fun _ _ => trivial,
    fun _ => trivial, ?_, Int.le_refl now⟩, fun _ => id⟩
  intro hstate
  cases hstate

/-- A call that is made was one that need not wait. -/
theorem step_call_eq_some :
    step config c (.call t) = some c' ↔ enabled c t = true ∧ c.advance perform t t = some c' := by
  show (if enabled c t = true then c.advance perform t t else none) = some c' ↔ _
  rw [Option.ite_none_right_eq_some]

/-- The next access of a task that is enabled does not wait. -/
theorem not_blocked_of_enabled (h : enabled c t = true) {call : CircuitBreaker.Call}
    {k : call.Res → Body Unit} (htask : c.task t = .call call k) : c.state.blocked call = false := by
  unfold enabled at h
  rw [htask] at h
  simpa using h

/-- **The step lemma.** -/
theorem Kept.step (h : Kept config c) {move : Move} (hstep : step config c move = some c') :
    Kept config c' := by
  obtain ⟨γ, hpledged⟩ := h
  have hinv := hpledged.inv
  cases move with
  | wait d =>
    cases hstep
    have hlater : c.state.now ≤ c.state.now + d := Int.le_add_of_nonneg_right (Int.natCast_nonneg d)
    have hevolves : Evolves c.state { c.state with now := c.state.now + d } :=
      ⟨hlater, Nat.le_refl _, fun _ => rfl, fun _ hs => hs, fun _ _ time htime hle => ⟨time, htime, hle⟩⟩
    exact ⟨γ, ⟨hinv.unlocked, hinv.unique, hinv.seen, fun t ht => (hinv.knows t ht).mono hevolves rfl,
      fun t => (hinv.keeps t).quiet rfl rfl, hinv.openedAt, Int.le_trans hinv.time hlater⟩, hpledged.each⟩
  | start t operation =>
    obtain ⟨hidle, heq⟩ := Option.ite_none_right_eq_some.mp hstep
    cases heq
    -- the last call of the task has let go of the lock
    have hnot : ¬ (γ t).Holds := hpledged.done_of_idle hidle
    refine ⟨_, hpledged.set t (hinv.quiet (g := .free) ⟨rfl, rfl, rfl, rfl, rfl, rfl⟩ (fun _ _ => rfl)
      (hinv.seen t) (fun _ => trivial) trivial False.elim fun hopening => ?_) (wp_callBody operation)⟩
    exact absurd hopening.holds hnot
  | call t =>
    obtain ⟨henabled, hadvance⟩ := step_call_eq_some.mp hstep
    obtain ⟨g, hnext⟩ := hpledged.advance hadvance fun call k htask post hcall =>
      hinv.perform hcall (not_blocked_of_enabled henabled htask)
    exact ⟨_, hnext⟩

/-- An access other than a write of the state leaves it as it is. -/
theorem perform_state {call : CircuitBreaker.Call} (hcall : ∀ target, call ≠ .writeState target) :
    (perform t call w).2.cb.state = w.cb.state := by
  cases call with
  | writeState target => exact absurd rfl (hcall target)
  | _ => rfl

/-- A write of the state writes it. -/
theorem perform_writeState (target : CircuitState) :
    (perform t (.writeState target) w).2.cb.state = target := by
  cases target <;> rfl

/-- **A step leaves Open properly exactly when it is not a transition of a task that is overtaken.** -/
theorem Kept.leavesProperly_iff (h : Kept config c) {move : Move}
    (hstep : BreakerRace.step config c move = some c') :
    LeavesProperly config c c' ↔ NotOvertaken config c move := by
  cases move with
  | wait d =>
    cases hstep
    exact iff_of_true (fun hopened hleft => absurd hopened hleft) trivial
  | start t operation =>
    obtain ⟨-, heq⟩ := Option.ite_none_right_eq_some.mp hstep
    cases heq
    exact iff_of_true (fun hopened hleft => absurd hopened hleft) trivial
  | call t =>
    obtain ⟨-, hadvance⟩ := step_call_eq_some.mp hstep
    obtain ⟨call, k, htask, rfl⟩ := Pool.advance_eq_some.mp hadvance
    by_cases hwrite : ∀ target, call ≠ .writeState target
    · refine iff_of_true (fun hopened hleft => ?_) fun target k' htask' => ?_
      · exact absurd hopened (perform_state (t := t) (w := c.state) hwrite ▸ hleft)
      · rw [htask] at htask'
        cases htask'
        exact absurd rfl (hwrite target)
    · push Not at hwrite
      obtain ⟨target, rfl⟩ := hwrite
      obtain ⟨γ, hpledged⟩ := h
      have hinv := hpledged.inv
      have hwp := hpledged.each t
      rw [htask] at hwp
      obtain ⟨s, purpose, ht, rfl, hleaves, -⟩ := hwp
      have hkeeps : c.state.cb.state = s := by
        have hkeeps := hinv.keeps t
        rwa [ht] at hkeeps
      have hseen := hinv.seen t
      have hknows := fun hfresh => hinv.knows t hfresh
      rw [ht] at hknows
      have hexit : LeavesProperly config c ⟨(perform t (.writeState purpose.target) c.state).2,
          Function.update c.task t (k ())⟩ ↔ (c.state.cb.state = .opened → purpose.target ≠ .opened →
            purpose.target = .halfOpen ∧ c.state.openSince + config.openTimeout ≤ c.state.now) := by
        unfold LeavesProperly
        dsimp only
        rw [perform_writeState]
      have hok : NotOvertaken config c (.call t) ↔ ¬ Overtaken config c.state t purpose.target :=
        ⟨fun hall => hall _ k htask, fun hnot target k' htask' => by
          rw [htask] at htask'
          cases htask'
          exact hnot⟩
      rw [hexit, hok]
      unfold Overtaken
      cases purpose with
      | opening =>
        -- it was not Open
        have hnot : c.state.cb.state ≠ .opened := hkeeps ▸ hleaves
        exact iff_of_true (fun hopened => absurd hopened hnot) fun hovertaken => hnot hovertaken.1
      | closing =>
        -- had it not been overtaken, it would know that the state is not Open
        by_cases hopened : c.state.cb.state = .opened
        · have hstale : c.state.seen t < c.state.openings :=
            Nat.lt_of_le_of_ne hseen fun hfresh => hknows hfresh hopened
          refine iff_of_false (fun hproper => ?_) fun hnot => hnot ⟨hopened, hstale, nofun⟩
          exact absurd (hproper hopened (by decide)).1 (by decide)
        · exact iff_of_true (fun hs => absurd hs hopened) fun hovertaken => hopened hovertaken.1
      | halfOpening =>
        have hopened : c.state.cb.state = .opened := hkeeps.trans hleaves
        constructor
        · rintro hproper ⟨-, -, hearly⟩
          exact absurd (hproper hopened (by decide)).2 (Int.not_le.mpr (hearly rfl))
        · intro hnot _ _
          refine ⟨rfl, ?_⟩
          by_cases hfresh : c.state.seen t = c.state.openings
          · exact hknows hfresh hopened
          · by_contra hearly
            exact hnot ⟨hopened, Nat.lt_of_le_of_ne hseen hfresh, fun _ => Int.not_le.mp hearly⟩

/-- **Open is left properly exactly in the runs in which no transition is made by a task that is
    overtaken**: whatever tasks call whatever methods in whatever interleaving, the breaker goes from Open to
    Closed, or leaves Open before the timeout, only when a task makes its transition after the breaker has
    been opened since it read the state. -/
theorem open_left_properly_iff (config : CircuitBreakerConfig) (now : Instant) (moves : List Move)
    (reached : System) (hrun : run (step config) (.start now) moves = some reached) :
    Steps (step config) (LeavesProperly config) (.start now) moves ↔
      Meets (step config) (NotOvertaken config) (.start now) moves :=
  steps_iff_meets (fun _ _ _ h _ hstep => Kept.step h hstep)
    (fun _ _ _ h hstep => Kept.leavesProperly_iff h hstep) (kept_start now) hrun

/-! ## A success that comes late -/

instance (config : CircuitBreakerConfig) (w : Shared) (t : Tid) (target : CircuitState) :
    Decidable (Overtaken config w t target) :=
  inferInstanceAs (Decidable (_ ∧ _ ∧ _))

instance (config : CircuitBreakerConfig) (c c' : System) : Decidable (LeavesProperly config c c') :=
  inferInstanceAs (Decidable (_ → _ → _ ∧ _))

/-- Only a task that is about to write the state has to be looked at. -/
instance (config : CircuitBreakerConfig) (c : System) : (move : Move) → Decidable (NotOvertaken config c move)
  | .wait _ => isTrue trivial
  | .start _ _ => isTrue trivial
  | .call t =>
    match htask : c.task t with
    | .call (.writeState target) k => decidable_of_iff (¬ Overtaken config c.state t target)
        ⟨fun hnot target' k' htask' => by cases htask.symm.trans htask'; exact hnot,
          fun hall => hall target k htask⟩
    | .ret _ => isTrue fun _ _ htask' => nomatch htask.symm.trans htask'
    | .call .readState _ => isTrue fun _ _ htask' => nomatch htask.symm.trans htask'
    | .call .sinceOpened _ => isTrue fun _ _ htask' => nomatch htask.symm.trans htask'
    | .call .lockState _ => isTrue fun _ _ htask' => nomatch htask.symm.trans htask'
    | .call .unlockState _ => isTrue fun _ _ htask' => nomatch htask.symm.trans htask'
    | .call .now _ => isTrue fun _ _ htask' => nomatch htask.symm.trans htask'
    | .call (.storeOpenedAt _) _ => isTrue fun _ _ htask' => nomatch htask.symm.trans htask'
    | .call .addFailure _ => isTrue fun _ _ htask' => nomatch htask.symm.trans htask'
    | .call .addSuccess _ => isTrue fun _ _ htask' => nomatch htask.symm.trans htask'
    | .call (.storeFailures _) _ => isTrue fun _ _ htask' => nomatch htask.symm.trans htask'
    | .call (.storeSuccesses _) _ => isTrue fun _ _ htask' => nomatch htask.symm.trans htask'
    | .call .addOpenCount _ => isTrue fun _ _ htask' => nomatch htask.symm.trans htask'

/-- A call of a method, with this many of its accesses. -/
def calling (t : Tid) (operation : Operation) (accesses : Nat) : List Move :=
  .start t operation :: List.replicate accesses (.call t)

/-- Five failures open the breaker, and half a minute later a request half-opens it. -/
def halfOpened : List Move :=
  (List.replicate 4 (calling 0 .recordFailure 2)).flatten ++ calling 0 .recordFailure 9 ++
    .wait (fromSecs 30) :: calling 0 .allowRequest 6

/-- Nobody is overtaken on the way there: it has left Open properly. -/
theorem half_opened_properly :
    Steps (step {}) (LeavesProperly {}) (.start 0) halfOpened ∧
      ∃ c, run (step {}) (.start 0) halfOpened = some c ∧ c.state.cb.state = .halfOpen :=
  ⟨(open_left_properly_iff {} 0 halfOpened _ rfl).mpr (by decide +kernel), _, rfl, rfl⟩

/-- A success that is counted in HalfOpen as the second, and then waits while a failure opens the breaker. -/
def lateSuccess : List Move :=
  halfOpened ++ calling 0 .recordSuccess 2 ++ calling 1 .recordSuccess 2 ++ calling 0 .recordFailure 8

/-- **The late success closes a breaker that has just opened.** -/
theorem late_success_closes :
    (∃ c, run (step {}) (.start 0) lateSuccess = some c ∧ c.state.cb.state = .opened ∧
      c.state.openSince = c.state.now) ∧
    (∃ c, run (step {}) (.start 0) (lateSuccess ++ [.call 1, .call 1]) = some c ∧
      c.state.cb.state = .closed ∧ c.state.openSince = c.state.now) ∧
    ¬ Steps (step {}) (LeavesProperly {}) (.start 0) (lateSuccess ++ [.call 1, .call 1]) :=
  ⟨⟨_, rfl, rfl, rfl⟩, ⟨_, rfl, rfl, rfl⟩, by decide +kernel⟩

end Smppd.Cluster.BreakerRace
