/-
  The SHUTDOWN coordinator (`src/bootstrap/shutdown.rs`): a watched state and a count of connections.

  Each method looks at the state, and some write it, but no lock is held from the look to the write.  So
  the methods are bodies of calls here, and any number of callers are interleaved at their calls.

  The state machine is meant to go one way: Running, Draining, Terminated.

  * `terminate` writes the last state and can do no harm.
  * `start_drain` writes the middle one.  It has found the state Running, but by the time it writes, a
    `terminate` may have come in between: then its write takes the state BACK.
  * Nobody writes Running, so what `connection_opened` answers is right in every interleaving.

  `moves_forward_iff` puts the three together: a run goes forward exactly when no drain is overtaken.

  The completion signal (`complete_tx`) is left out: nobody waits for it.  What the methods log is too.
-/
import Smppd.Lib.Machine
import Smppd.Lib.Prog
import Smppd.Lib.Watch
import Smppd.Store.Types

set_option linter.unusedVariables false

namespace Smppd.Bootstrap

open Smppd.Store Prog Machine

/-! ## The coordinator -/

/-- Shutdown state machine. -/
inductive Shutdown.State where
  | running
  | draining
  | terminated
  deriving DecidableEq

/-- How far the shutdown has come. -/
def Shutdown.State.rank : Shutdown.State → Nat
  | .running => 0
  | .draining => 1
  | .terminated => 2

/-- Graceful shutdown coordinator. -/
structure Shutdown where
  state : Watch Shutdown.State
  drainTimeout : Duration
  activeConnections : UInt64

namespace Shutdown

/-- `Shutdown::new`. -/
def new (drainTimeout : Duration) : Shutdown := ⟨⟨.running, 0⟩, drainTimeout, 0⟩

/-! ## The methods -/

/-- What a method does to the coordinator, one access at a time. -/
inductive Call where
  /-- `*self.state.borrow()`. -/
  | state
  | sendReplace (state : State)
  /-- `active_connections.fetch_add(1)`. -/
  | connectionAdd
  /-- `active_connections.fetch_sub(1)`, which answers what was there before. -/
  | connectionSub
  /-- Whoever has asked `connection_opened` takes note of the answer. -/
  | answer (opened : Bool)

/-- What each call answers. -/
abbrev Call.Res : Call → Type
  | .state => State
  | .connectionSub => UInt64
  | _ => Unit

abbrev Body (α : Type) := Prog Call Call.Res α

/-- A single call. -/
abbrev ask (call : Call) : Body call.Res := Prog.request call

/-- `start_drain`. -/
def startDrain : Body Unit := do
  let state ← ask .state
  if state ≠ .running then pure ()
  else ask (.sendReplace .draining)

/-- `terminate`. -/
def terminate : Body Unit := do
  let state ← ask .state
  if state = .terminated then pure ()
  else ask (.sendReplace .terminated)

/-- `connection_opened`. -/
def connectionOpened : Body Bool := do
  let state ← ask .state
  if state ≠ .running then pure false
  else do
    ask .connectionAdd
    pure true

/-- `connection_closed`. -/
def connectionClosed : Body Unit := do
  let prev ← ask .connectionSub
  let state ← ask .state
  if state = .draining ∧ prev = 1 then terminate
  else pure ()

/-! ## Any number of callers -/

/-- A task that calls methods of the coordinator. -/
abbrev Tid := Nat

/-- The coordinator, and for the specification: how often Terminated has been written, what the state was
    when each task began its call, how often Terminated had been written when it last looked at the state,
    and what each `connection_opened` has answered, with the state when it began. -/
structure Callers where
  shutdown : Shutdown
  terminations : Nat := 0
  begun : Tid → State := fun _ => .running
  looked : Tid → Nat := fun _ => 0
  answers : List (State × Bool) := []

/-- What a call does to the coordinator. -/
def access : (call : Call) → Shutdown → call.Res × Shutdown
  | .state, s => (s.state.value, s)
  | .sendReplace state, s => ((), { s with state := s.state.sendReplace state })
  | .connectionAdd, s => ((), { s with activeConnections := s.activeConnections + 1 })
  | .connectionSub, s => (s.activeConnections, { s with activeConnections := s.activeConnections - 1 })
  | .answer _, s => ((), s)

/-- What a call of the task does, with what the specification keeps of it. -/
def perform (t : Tid) (call : Call) (c : Callers) : call.Res × Callers :=
  let (answer, shutdown) := access call c.shutdown
  (answer, match call with
    | .state =>
      { c with shutdown := shutdown, looked := Function.update c.looked t c.terminations }
    | .sendReplace state =>
      { c with
        shutdown := shutdown
        terminations := if state = .terminated then c.terminations + 1 else c.terminations }
    | .answer opened => { c with shutdown := shutdown, answers := c.answers ++ [(c.begun t, opened)] }
    | _ => { c with shutdown := shutdown })

/-- The methods. -/
inductive Operation where
  | startDrain
  | terminate
  | connectionOpened
  | connectionClosed

/-- A call of a method from beginning to end. -/
def Operation.body : Operation → Body Unit
  | .startDrain => Shutdown.startDrain
  | .terminate => Shutdown.terminate
  | .connectionOpened => do
    let opened ← Shutdown.connectionOpened
    ask (.answer opened)
  | .connectionClosed => Shutdown.connectionClosed

/-- What can happen next. -/
inductive Move where
  /-- A task that is free calls a method. -/
  | start (t : Tid) (operation : Operation)
  /-- A task makes its next access. -/
  | call (t : Tid)

/-- The coordinator and what is left of the call of each task. -/
abbrev System := Pool Call Call.Res Tid Callers

/-- Nobody has called yet. -/
def System.start (drainTimeout : Duration) : System := ⟨{ shutdown := .new drainTimeout }, fun _ => .ret ()⟩

/-- One step of the callers. -/
def step (c : System) : Move → Option System
  | .start t operation =>
    if (c.task t).idle then
      some ⟨{ c.state with begun := Function.update c.state.begun t c.state.shutdown.state.value },
        Function.update c.task t operation.body⟩
    else none
  | .call t => c.advance perform t t

/-! ## Going forward -/

/-- The state does not go back. -/
def Forward (c c' : System) : Prop :=
  c.state.shutdown.state.value.rank ≤ c'.state.shutdown.state.value.rank

/-- The shutdown only moves forward in this run: no step takes the state back, and no `connection_opened`
    that began after the state had left Running has answered `true`. -/
def OnlyForward (drainTimeout : Duration) (moves : List Move) : Prop :=
  Steps step Forward (.start drainTimeout) moves ∧
    ∀ before after c, moves = before ++ after → run step (.start drainTimeout) before = some c →
      ∀ state, (state, true) ∈ c.state.answers → state = .running

/-- The step is not the write of a `start_drain` that a `terminate` has overtaken since its look at the
    state. -/
def NotOvertaken (c : System) : Move → Prop
  | .call t => ∀ k, c.task t = .call (.sendReplace .draining) k → c.state.looked t = c.state.terminations
  | .start _ _ => True

/-! ## What the methods do -/

/-- What a task has found at its last look. -/
inductive Stage where
  | free
  | sawRunning
  deriving DecidableEq

/-- Nobody writes Running; whoever writes Draining, or answers `true`, has seen Running. -/
def guarded : Spec Call Call.Res Stage
  | .state, post, _ => post .running .sawRunning ∧ ∀ s, s ≠ .running → post s .free
  | .sendReplace state, post, g =>
    (state = .draining ∧ g = .sawRunning ∨ state = .terminated) ∧ post () .free
  | .connectionAdd, post, g => post () g
  | .connectionSub, post, g => ∀ r, post r g
  | .answer opened, post, g => (opened = true → g = .sawRunning) ∧ post () .free

/-- A look at the state: the rest may use that it has seen Running. -/
theorem wp_look {α : Type} {k : State → Body α} {post : α → Stage → Prop} {g : Stage}
    (hrunning : (k .running).wp guarded post .sawRunning)
    (hother : ∀ s, s ≠ .running → (k s).wp guarded post .free) :
    Prog.wp guarded (.call .state k) post g := ⟨hrunning, hother⟩

theorem wp_terminate {post : Unit → Stage → Prop} (hpost : ∀ g, post () g) (g : Stage) :
    terminate.wp guarded post g := by
  unfold terminate
  simp only [request_bind]
  refine wp_look ⟨Or.inr rfl, hpost _⟩ fun s _ => ?_
  by_cases hs : s = .terminated
  · rw [if_pos hs]
    exact hpost _
  · rw [if_neg hs]
    exact ⟨Or.inr rfl, hpost _⟩

theorem wp_startDrain {post : Unit → Stage → Prop} (hpost : ∀ g, post () g) (g : Stage) :
    startDrain.wp guarded post g := by
  unfold startDrain
  simp only [request_bind]
  refine wp_look ⟨Or.inl ⟨rfl, rfl⟩, hpost _⟩ fun s hs => ?_
  rw [if_pos hs]
  exact hpost _

theorem wp_connectionOpened {post : Bool → Stage → Prop} (htrue : post true .sawRunning)
    (hfalse : post false .free) (g : Stage) : connectionOpened.wp guarded post g := by
  unfold connectionOpened
  simp only [request_bind]
  refine wp_look htrue fun s hs => ?_
  rw [if_pos hs]
  exact hfalse

theorem wp_connectionClosed {post : Unit → Stage → Prop} (hpost : ∀ g, post () g) (g : Stage) :
    connectionClosed.wp guarded post g := by
  unfold connectionClosed
  simp only [request_bind]
  intro prev
  refine wp_look ?_ fun s _ => ?_
  · rw [if_neg (by simp)]
    exact hpost _
  · by_cases hlast : s = .draining ∧ prev = 1
    · rw [if_pos hlast]
      exact wp_terminate hpost _
    · rw [if_neg hlast]
      exact hpost _

/-- **Every method keeps the specification**, whatever its caller has seen before. -/
theorem wp_body (operation : Operation) (g : Stage) :
    operation.body.wp guarded (fun _ _ => True) g := by
  cases operation with
  | startDrain => exact wp_startDrain (fun _ => trivial) g
  | terminate => exact wp_terminate (fun _ => trivial) g
  | connectionOpened =>
    refine (wp_bind guarded _ _ _ g).mpr (wp_connectionOpened ?_ ?_ g)
    · exact ⟨fun _ => rfl, trivial⟩
    · exact ⟨nofun, trivial⟩
  | connectionClosed => exact wp_connectionClosed (fun _ => trivial) g

/-! ## What holds in every interleaving -/

/-- A state other than Running is never left for Running, and a task that has seen Running began its call
    while the state was Running. -/
structure Departed (c : Callers) (γ : Tid → Stage) : Prop where
  begun : ∀ t, c.begun t ≠ .running → c.shutdown.state.value ≠ .running
  stage : ∀ t, γ t = .sawRunning → c.begun t = .running
  answers : ∀ state, (state, true) ∈ c.answers → state = .running

/-- Terminated, once written, is the state; and who has seen Running has seen it before that. -/
structure Absorbed (c : Callers) (γ : Tid → Stage) : Prop where
  state : 0 < c.terminations ↔ c.shutdown.state.value = .terminated
  looked : ∀ t, γ t = .sawRunning → c.looked t = 0

/-- Every task keeps the specification, and the invariant holds. -/
def Kept (Inv : Callers → (Tid → Stage) → Prop) (c : System) : Prop :=
  ∃ γ, Pledged (fun _ => guarded) (fun _ _ => True) Inv c γ

/-- A task that has seen nothing yet takes nothing from what the others have seen. -/
theorem stage_of_update_free {γ : Tid → Stage} {t t' : Tid}
    (h : Function.update γ t .free t' = .sawRunning) : γ t' = .sawRunning := by
  by_cases ht : t' = t
  · subst ht
    rw [Function.update_self] at h
    cases h
  · rwa [Function.update_of_ne ht] at h

variable {c : Callers} {γ : Tid → Stage} {t : Tid}

/-- A call of any task keeps `Departed`. -/
theorem Departed.perform (h : Departed c γ) {call : Call} {post : call.Res → Stage → Prop}
    (hcall : guarded call post (γ t)) :
    ∃ g, post (perform t call c).1 g ∧ Departed (perform t call c).2 (Function.update γ t g) := by
  have hfree : ∀ t', Function.update γ t .free t' = .sawRunning → γ t' = .sawRunning :=
    fun t' => stage_of_update_free
  cases call with
  | state =>
    obtain ⟨hrunning, hother⟩ := hcall
    by_cases hs : c.shutdown.state.value = .running
    · refine ⟨.sawRunning, ?_, h.begun, fun t' ht' => ?_, h.answers⟩
      · show post c.shutdown.state.value .sawRunning
        rw [hs]
        exact hrunning
      · -- whoever looks and sees Running began while the state was Running
        by_contra hbegun
        exact h.begun t' hbegun hs
    · exact ⟨.free, hother _ hs, h.begun, fun t' ht' => h.stage t' (hfree t' ht'), h.answers⟩
  | sendReplace state =>
    obtain ⟨hstate, hpost⟩ := hcall
    refine ⟨.free, hpost, fun t' _ => ?_, fun t' ht' => h.stage t' (hfree t' ht'), h.answers⟩
    show state ≠ .running
    rcases hstate with ⟨rfl, -⟩ | rfl
    · decide
    · decide
  | connectionAdd =>
    refine ⟨γ t, hcall, ?_⟩
    rw [Function.update_eq_self]
    exact ⟨h.begun, h.stage, h.answers⟩
  | connectionSub =>
    refine ⟨γ t, hcall _, ?_⟩
    rw [Function.update_eq_self]
    exact ⟨h.begun, h.stage, h.answers⟩
  | answer opened =>
    obtain ⟨hopened, hpost⟩ := hcall
    refine ⟨.free, hpost, h.begun, fun t' ht' => h.stage t' (hfree t' ht'), fun state hmem => ?_⟩
    rcases List.mem_append.mp hmem with hold | hnew
    · exact h.answers state hold
    · obtain ⟨rfl, htrue⟩ := Prod.mk.inj (List.mem_singleton.mp hnew)
      exact h.stage t (hopened htrue.symm)

/-- A call keeps `Absorbed`, if it is not the write of a drain that has been overtaken. -/
theorem Absorbed.perform (h : Absorbed c γ) {call : Call} {post : call.Res → Stage → Prop}
    (hcall : guarded call post (γ t))
    (hok : call = .sendReplace .draining → c.looked t = c.terminations) :
    ∃ g, post (perform t call c).1 g ∧ Absorbed (perform t call c).2 (Function.update γ t g) := by
  have hfree : ∀ t', Function.update γ t .free t' = .sawRunning → γ t' = .sawRunning :=
    fun t' => stage_of_update_free
  cases call with
  | state =>
    obtain ⟨hrunning, hother⟩ := hcall
    have hlooked : ∀ t', t' ≠ t → γ t' = .sawRunning →
        Function.update c.looked t c.terminations t' = 0 := fun t' ht hsaw => by
      rw [Function.update_of_ne ht]
      exact h.looked t' hsaw
    by_cases hs : c.shutdown.state.value = .running
    · refine ⟨.sawRunning, ?_, h.state, fun t' ht' => ?_⟩
      · show post c.shutdown.state.value .sawRunning
        rw [hs]
        exact hrunning
      · show Function.update c.looked t c.terminations t' = 0
        by_cases ht : t' = t
        · subst ht
          -- Running is not Terminated, so Terminated has not been written
          have hnone : ¬ 0 < c.terminations := fun hpos => by
            rw [h.state.mp hpos] at hs
            cases hs
          rw [Function.update_self]
          exact Nat.eq_zero_of_not_pos hnone
        · rw [Function.update_of_ne ht] at ht'
          exact hlooked t' ht ht'
    · refine ⟨.free, hother _ hs, h.state, fun t' ht' => ?_⟩
      by_cases ht : t' = t
      · subst ht
        rw [Function.update_self] at ht'
        cases ht'
      · exact hlooked t' ht (hfree t' ht')
  | sendReplace state =>
    obtain ⟨hstate, hpost⟩ := hcall
    refine ⟨.free, hpost, ?_, fun t' ht' => h.looked t' (hfree t' ht')⟩
    show 0 < (if state = .terminated then c.terminations + 1 else c.terminations) ↔ state = .terminated
    rcases hstate with ⟨rfl, hsaw⟩ | rfl
    · -- the drain has seen Running, and nobody has written Terminated since
      have hnone : c.terminations = 0 := by rw [← hok rfl, h.looked t hsaw]
      simp [hnone]
    · simp
  | connectionAdd =>
    refine ⟨γ t, hcall, ?_⟩
    rw [Function.update_eq_self]
    exact ⟨h.state, h.looked⟩
  | connectionSub =>
    refine ⟨γ t, hcall _, ?_⟩
    rw [Function.update_eq_self]
    exact ⟨h.state, h.looked⟩
  | answer opened =>
    exact ⟨.free, hcall.2, h.state, fun t' ht' => h.looked t' (hfree t' ht')⟩

/-! ## Runs -/

theorem kept_start {Inv : Callers → (Tid → Stage) → Prop} {drainTimeout : Duration}
    (h : Inv { shutdown := .new drainTimeout } fun _ => .free) : Kept Inv (.start drainTimeout) :=
  ⟨fun _ => .free, h, fun _ => trivial⟩

/-- A call of one task, when its access keeps the invariant. -/
theorem Kept.call {Inv : Callers → (Tid → Stage) → Prop} {s s' : System} (h : Kept Inv s)
    (hstep : step s (.call t) = some s')
    (hperform : ∀ call k γ, s.task t = .call call k → Inv s.state γ →
      ∀ post : call.Res → Stage → Prop, guarded call post (γ t) →
        ∃ g, post (perform t call s.state).1 g ∧ Inv (perform t call s.state).2 (Function.update γ t g)) :
    Kept Inv s' := by
  obtain ⟨γ, hpledged⟩ := h
  obtain ⟨g, hnext⟩ := hpledged.advance hstep fun call k htask post hcall =>
    hperform call k γ htask hpledged.inv post hcall
  exact ⟨_, hnext⟩

/-- A task that begins a call has seen nothing yet. -/
theorem Kept.begin {Inv : Callers → (Tid → Stage) → Prop} {s s' : System} {operation : Operation}
    (h : Kept Inv s) (hstep : step s (.start t operation) = some s')
    (hbegun : ∀ γ, Inv s.state γ →
      Inv { s.state with begun := Function.update s.state.begun t s.state.shutdown.state.value }
        (Function.update γ t .free)) : Kept Inv s' := by
  obtain ⟨γ, hpledged⟩ := h
  obtain ⟨-, heq⟩ := Option.ite_none_right_eq_some.mp hstep
  cases heq
  exact ⟨_, hpledged.set t (hbegun γ hpledged.inv) (wp_body operation .free)⟩

/-- **The step lemma of `Departed`**: every step keeps it. -/
theorem Kept.departed {s s' : System} (h : Kept Departed s) {move : Move}
    (hstep : step s move = some s') : Kept Departed s' := by
  cases move with
  | start t operation =>
    refine h.begin hstep fun γ hinv => ⟨fun t' hbegun => ?_, fun t' hsaw => ?_, hinv.answers⟩
    · show s.state.shutdown.state.value ≠ .running
      by_cases ht : t' = t
      · subst ht
        simpa using hbegun
      · exact hinv.begun t' (by simpa [Function.update_of_ne ht] using hbegun)
    · show Function.update s.state.begun t s.state.shutdown.state.value t' = .running
      by_cases ht : t' = t
      · subst ht
        rw [Function.update_self] at hsaw
        cases hsaw
      · rw [Function.update_of_ne ht]
        exact hinv.stage t' (stage_of_update_free hsaw)
  | call t => exact h.call hstep fun call k γ _ hinv post hcall => hinv.perform hcall

/-- **The step lemma of `Absorbed`**: every step keeps it but the write of a drain that has been
    overtaken. -/
theorem Kept.absorbed {s s' : System} (h : Kept Absorbed s) {move : Move} (hok : NotOvertaken s move)
    (hstep : step s move = some s') : Kept Absorbed s' := by
  cases move with
  | start t operation =>
    exact h.begin hstep fun γ hinv => ⟨hinv.state, fun t' hsaw => hinv.looked t' (stage_of_update_free hsaw)⟩
  | call t =>
    refine h.call hstep fun call k γ htask hinv post hcall => hinv.perform hcall ?_
    rintro rfl
    exact hok k htask

/-- **A step goes forward exactly when it is not the write of a drain that has been overtaken.** -/
theorem Kept.forward_iff {s s' : System} (h : Kept Absorbed s) {move : Move}
    (hstep : step s move = some s') : Forward s s' ↔ NotOvertaken s move := by
  cases move with
  | start t operation =>
    obtain ⟨-, heq⟩ := Option.ite_none_right_eq_some.mp hstep
    cases heq
    exact ⟨fun _ => trivial, fun _ => Nat.le_refl _⟩
  | call t =>
    obtain ⟨call, k, htask, rfl⟩ := Pool.advance_eq_some.mp hstep
    obtain ⟨γ, hpledged⟩ := h
    have hinv := hpledged.inv
    have hwp := hpledged.each t
    rw [htask] at hwp
    cases call with
    | sendReplace state =>
      rcases hwp.1 with ⟨rfl, hsaw⟩ | rfl
      · -- it has seen Running: its write goes forward unless Terminated has been written
        have hlooked := hinv.looked t hsaw
        have hforward : Forward s ⟨(perform t (.sendReplace .draining) s.state).2,
            Function.update s.task t (k ())⟩ ↔ s.state.shutdown.state.value ≠ .terminated := by
          show s.state.shutdown.state.value.rank ≤ 1 ↔ _
          cases s.state.shutdown.state.value <;> decide
        have hovertaken : NotOvertaken s (.call t) ↔ s.state.looked t = s.state.terminations :=
          ⟨fun hok => hok k htask, fun heq _ _ => heq⟩
        rw [hforward, hovertaken, ne_eq, ← hinv.state, hlooked]
        omega
      · refine ⟨fun _ k' htask' => ?_, fun _ => ?_⟩
        · rw [htask] at htask'
          cases htask'
        · show s.state.shutdown.state.value.rank ≤ 2
          cases s.state.shutdown.state.value <;> decide
    | _ =>
      refine ⟨fun _ k' htask' => ?_, fun _ => Nat.le_refl _⟩
      rw [htask] at htask'
      cases htask'

/-- `connection_opened` is right in every run. -/
theorem answers_of_run {drainTimeout : Duration} {moves : List Move} {s : System}
    (hrun : run step (.start drainTimeout) moves = some s) :
    ∀ state, (state, true) ∈ s.state.answers → state = .running := by
  have hstart : Departed { shutdown := .new drainTimeout } fun _ => .free :=
    ⟨fun _ h => absurd rfl h, nofun, fun _ h => absurd h List.not_mem_nil⟩
  obtain ⟨γ, hpledged⟩ := run_inv (fun _ _ _ h hstep => Kept.departed h hstep) (kept_start hstart) hrun
  exact hpledged.inv.answers

/-- **The shutdown only moves forward exactly in the runs in which no drain is overtaken**: whatever tasks
    call whatever methods in whatever interleaving, the state goes back only when a `start_drain` writes
    after a `terminate` has written since its look at the state. -/
theorem moves_forward_iff (drainTimeout : Duration) (moves : List Move) (s : System)
    (hrun : run step (.start drainTimeout) moves = some s) :
    OnlyForward drainTimeout moves ↔ Meets step NotOvertaken (.start drainTimeout) moves := by
  have hstart : Absorbed { shutdown := .new drainTimeout } fun _ => .free :=
    ⟨⟨fun h => absurd h (Nat.lt_irrefl 0), nofun⟩, nofun⟩
  have hsteps : Steps step Forward (.start drainTimeout) moves ↔
      Meets step NotOvertaken (.start drainTimeout) moves :=
    steps_iff_meets (fun _ _ _ h hok hstep => Kept.absorbed h hok hstep)
      (fun _ _ _ h hstep => Kept.forward_iff h hstep) (kept_start hstart) hrun
  rw [← hsteps]
  exact ⟨fun h => h.1, fun h => ⟨h, fun _ _ _ _ hbefore => answers_of_run hbefore⟩⟩

/-- A drain, and after it a termination. -/
def drainThenTerminate : List Move :=
  [.start 0 .startDrain, .call 0, .call 0, .start 1 .terminate, .call 1, .call 1]

/-- The order in which the server calls the two goes forward. -/
theorem drain_then_terminate_forward : OnlyForward (fromSecs 30) drainThenTerminate := by
  refine (moves_forward_iff (fromSecs 30) drainThenTerminate _ rfl).mpr ?_
  refine (meets_cons rfl).mpr ⟨trivial, (meets_cons rfl).mpr ⟨fun k h => ?_, ?_⟩⟩
  · cases h
  refine (meets_cons rfl).mpr ⟨fun _ _ => rfl, (meets_cons rfl).mpr ⟨trivial, ?_⟩⟩
  refine (meets_cons rfl).mpr ⟨fun k h => ?_, (meets_cons rfl).mpr ⟨fun k h => ?_, trivial⟩⟩
  · cases h
  · cases h

/-- A termination that comes between the look of a drain and its write. -/
def overtakenDrain : List Move :=
  [.start 0 .startDrain, .call 0, .start 1 .terminate, .call 1, .call 1, .call 0]

/-- The drain takes the state back from Terminated to Draining. -/
theorem drain_undoes_termination :
    (∃ s, run step (.start (fromSecs 30)) overtakenDrain = some s ∧
      s.state.shutdown.state.value = .draining ∧ s.state.terminations = 1) ∧
    ¬ OnlyForward (fromSecs 30) overtakenDrain := by
  refine ⟨⟨_, rfl, rfl, rfl⟩, fun h => ?_⟩
  obtain ⟨-, h⟩ := (meets_cons rfl).mp h.1
  obtain ⟨-, h⟩ := (meets_cons rfl).mp h
  obtain ⟨-, h⟩ := (meets_cons rfl).mp h
  obtain ⟨-, h⟩ := (meets_cons rfl).mp h
  obtain ⟨-, h⟩ := (meets_cons rfl).mp h
  have hback : Shutdown.State.rank .terminated ≤ Shutdown.State.rank .draining := h.1 _ rfl
  exact absurd hback (by decide)

end Shutdown

end Smppd.Bootstrap
