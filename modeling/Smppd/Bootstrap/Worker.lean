/-
  The WORKER THREADS (`src/bootstrap/worker.rs`) and the tasks of the server that start and join them
  (`Server::run` and `Server::reload_config` of `src/bootstrap/server.rs`).

  A worker signals that it is ready, subscribes to the shutdown state, and ends when it is told of a
  change.  The server starts the workers, and joins them in two places: on a reload, and when it shuts
  down.  Threads are interleaved at their calls, and a call may BLOCK; then it is not enabled.

  A join blocks for ever when the worker is not going to be told of a change, for nobody but the server
  ever changes the state, and the server is the one that waits.

  * On a reload nothing has changed the state since the workers subscribed: the first join never
    returns (`not_joinSafe_of_running`).
  * At the end `start_drain` has changed it, but for a worker that is ready and has not subscribed yet
    the change is one it has already seen.

  `joins_safe` says that there is nothing else: a run in which no reload gets past its configuration file
  and no drain begins before all workers have subscribed never comes to a join that can block for ever.

  Waiting for connections to drain, which `run` and `reload_config` do before they join, ends after a
  time and changes nothing here; it is the freedom of the other threads to move before the next call.
-/
import Smppd.Bootstrap.Shutdown

set_option linter.unusedVariables false

namespace Smppd.Bootstrap.Workers

open Smppd.Store Prog Machine

/-! ## Threads -/

/-- Who runs: the task of the server, or a worker thread, by its number. -/
inductive Party where
  | server
  | worker (thread : Nat)
  deriving DecidableEq

theorem Party.server_ne_worker (thread : Nat) : Party.server ≠ .worker thread := nofun

/-- The calls of the server and of the workers. -/
inductive Call where
  /-- A call of a method of the shutdown coordinator. -/
  | shutdown (call : Shutdown.Call)
  /-- `thread::Builder::spawn`: the number of the new thread. -/
  | spawn
  /-- `ready_tx.send`, of the thread. -/
  | sendReady (thread : Nat)
  /-- `ready_rx.recv`, by which the server waits for the thread. -/
  | recvReady (thread : Nat)
  /-- `shutdown.subscribe`, of the thread: the version its receiver has seen. -/
  | subscribe (thread : Nat)
  /-- `shutdown_rx.changed`, of a receiver that has seen this version. -/
  | changed (seen : Nat)
  /-- The closure of the thread returns. -/
  | exit (thread : Nat)
  /-- `handle.join`. -/
  | join (thread : Nat)
  /-- `self.workers.write().await.take()`. -/
  | takeWorkers
  | putWorkers (workers : List Nat)

/-- What each call answers. -/
abbrev Call.Res : Call → Type
  | .shutdown op => op.Res
  | .spawn => Nat
  | .subscribe _ => Nat
  | .takeWorkers => Option (List Nat)
  | _ => Unit

abbrev Body (α : Type) := Prog Call Call.Res α

/-- A single call. -/
abbrev ask (call : Call) : Body call.Res := Prog.request call

/-- A method of the coordinator. -/
def onShutdown {α : Type} (p : Shutdown.Body α) : Body α := p.embed Call.shutdown fun _ r => r

/-! ## The bodies -/

/-- The closure of `Worker::spawn`.  The second after which the loop goes round again without a change is
    left out: it waits once more. -/
def worker (thread : Nat) : Body Unit := do
  ask (.sendReady thread)
  let seen ← ask (.subscribe thread)
  ask (.changed seen)
  ask (.exit thread)

/-- `Worker::spawn`, as its caller sees it. -/
def spawnWorker : Body Nat := do
  let thread ← ask .spawn
  ask (.recvReady thread)
  pure thread

/-- The workers of a pool of this size, one after the other. -/
def spawnWorkers : Nat → Body (List Nat)
  | 0 => pure []
  | n + 1 => do
    let thread ← spawnWorker
    let threads ← spawnWorkers n
    pure (thread :: threads)

/-- Join one after the other. -/
def joinAll : List Nat → Body Unit
  | [] => pure ()
  | thread :: threads => do
    ask (.join thread)
    joinAll threads

/-- The server takes its workers and calls `Workers::shutdown`. -/
def shutdownWorkers : Body Unit := do
  match ← ask .takeWorkers with
  | some threads => joinAll threads
  | none => pure ()

section Server

variable (cpus : Nat)

/-- `Workers::new`, of a configuration with this many workers. -/
def newWorkers (workers : Nat) : Body (List Nat) := spawnWorkers (if workers = 0 then cpus else workers)

/-- `Server::run` up to its main loop. -/
def startUp (workers : Nat) : Body Unit := do
  let threads ← newWorkers cpus workers
  ask (.putWorkers threads)

/-- `Server::reload_config`, for a configuration file that has this many workers, or does not load. -/
def reloadConfig : Option Nat → Body Unit
  | none => pure ()
  | some workers => do
    shutdownWorkers
    let threads ← newWorkers cpus workers
    ask (.putWorkers threads)

end Server

/-- `Server::run` after its main loop. -/
def shutdownSequence : Body Unit := do
  onShutdown Shutdown.startDrain
  shutdownWorkers
  onShutdown Shutdown.terminate

/-! ## The machine -/

/-- What the threads share; of each worker thread whether it has signalled that it is ready, the version
    it had seen when it subscribed, and whether it has ended. -/
structure Threads where
  shutdown : Shutdown
  workers : Option (List Nat) := none
  spawned : Nat := 0
  ready : Nat → Bool := fun _ => false
  subscribed : Nat → Option Nat := fun _ => none
  ended : Nat → Bool := fun _ => false
  /-- The server is in its main loop, or on the way there. -/
  serving : Bool := true

/-- The call waits. -/
def Threads.blocked (w : Threads) : Call → Bool
  | .recvReady thread => !w.ready thread
  | .changed seen => !decide (w.shutdown.state.Changed seen)
  | .join thread => !w.ended thread
  | _ => false

/-- What a call does. -/
def perform : Unit → (call : Call) → Threads → call.Res × Threads
  | _, .shutdown op, w =>
    let (answer, shutdown) := Shutdown.access op w.shutdown
    (answer, { w with shutdown := shutdown })
  | _, .spawn, w => (w.spawned, { w with spawned := w.spawned + 1 })
  | _, .sendReady thread, w => ((), { w with ready := Function.update w.ready thread true })
  | _, .recvReady _, w => ((), w)
  | _, .subscribe thread, w =>
    let seen := w.shutdown.state.subscribe
    (seen, { w with subscribed := Function.update w.subscribed thread (some seen) })
  | _, .changed _, w => ((), w)
  | _, .exit thread, w => ((), { w with ended := Function.update w.ended thread true })
  | _, .join _, w => ((), w)
  | _, .takeWorkers, w => (w.workers, { w with workers := none })
  | _, .putWorkers workers, w => ((), { w with workers := some workers })

/-- The threads and what is left of the body of each. -/
abbrev System := Pool Call Call.Res Party Threads

/-- What can happen next. -/
inductive Move where
  /-- A thread makes its next call. -/
  | call (party : Party)
  /-- SIGHUP, with what the configuration file has to say by then. -/
  | hangup (loaded : Option Nat)
  /-- SIGINT or SIGTERM. -/
  | terminate

/-- The thread has been spawned. -/
def Threads.started (w : Threads) : Party → Bool
  | .server => true
  | .worker thread => thread < w.spawned

/-- The next call of the thread does not wait. -/
def enabled (c : System) (party : Party) : Bool :=
  c.state.started party && match c.task party with
    | .ret _ => false
    | .call op _ => !c.state.blocked op

section System

variable (cpus : Nat)

/-- The server begins, with a configuration that has this many workers. -/
def System.start (drainTimeout : Duration) (workers : Nat) : System where
  state := { shutdown := .new drainTimeout }
  task
    | .server => startUp cpus workers
    | .worker thread => worker thread

/-- One step of the threads.  The server takes the next signal when it is done with the last one. -/
def step (c : System) : Move → Option System
  | .call party => if enabled c party then c.advance perform party () else none
  | .hangup loaded =>
    if c.state.serving && (c.task .server).idle then
      some ⟨c.state, Function.update c.task .server (reloadConfig cpus loaded)⟩
    else none
  | .terminate =>
    if c.state.serving && (c.task .server).idle then
      some ⟨{ c.state with serving := false }, Function.update c.task .server shutdownSequence⟩
    else none

/-! ## Joins -/

/-- The shutdown state has changed since the thread subscribed to it. -/
def ChangedSince (w : Threads) (thread : Nat) : Prop :=
  ∃ seen, w.subscribed thread = some seen ∧ w.shutdown.state.Changed seen

/-- A move of a worker thread. -/
def Move.OfWorker : Move → Prop
  | .call (.worker _) => True
  | _ => False

/-- The worker threads, without the server, can get to where the state has changed since the thread
    subscribed. -/
def WillChange (c : System) (thread : Nat) : Prop :=
  ∃ moves c', (∀ move ∈ moves, move.OfWorker) ∧ run (step cpus) c moves = some c' ∧
    ChangedSince c'.state thread

/-- When the server is about to join a thread, the state has changed since that thread subscribed, or is
    going to be changed without the server. -/
def JoinSafe (c : System) : Prop :=
  ∀ thread k, c.task .server = .call (.join thread) k →
    ChangedSince c.state thread ∨ WillChange cpus c thread

/-- No configuration file loads on a reload, and when a drain begins all workers have subscribed. -/
def Orderly (c : System) : Move → Prop
  | .hangup loaded => loaded = none
  | .call .server => ∀ k, c.task .server = .call (.shutdown (.sendReplace .draining)) k →
      ∀ threads, c.state.workers = some threads → ∀ thread ∈ threads, c.state.subscribed thread ≠ none
  | _ => True

end System

/-! ## What the bodies may do -/

/-- What a thread has done, as far as the others rely on it. -/
inductive Stage where
  /-- A worker that has not subscribed. -/
  | fresh
  /-- A worker that has. -/
  | told
  /-- The server is in its main loop, or on the way there. -/
  | serving
  /-- The server has left its main loop, and has not begun to drain. -/
  | stopping
  /-- The server has begun to drain. -/
  | drained
  /-- The server has taken these workers and joins them. -/
  | joining (threads : List Nat)

/-- A worker subscribes once, and never touches what belongs to the server. -/
def works (thread : Nat) : Spec Call Call.Res Stage
  | .sendReady _, post, g => post () g
  | .subscribe thread', post, g => thread' = thread ∧ g = .fresh ∧ ∀ seen, post seen .told
  | .changed _, post, g => post () g
  | .exit _, post, g => post () g
  | _, _, _ => False

/-- The server joins nobody but the workers it has taken after the drain has begun. -/
def serves : Spec Call Call.Res Stage
  | .shutdown .state, post, g =>
    (g = .stopping → post .running .stopping) ∧ (g ≠ .stopping → ∀ s, post s g)
  | .shutdown (.sendReplace .draining), post, g => g = .stopping ∧ post () .drained
  | .shutdown (.sendReplace .terminated), post, g => (∃ threads, g = .joining threads) ∧ post () g
  | .spawn, post, g => ∀ thread, post thread g
  | .recvReady _, post, g => post () g
  | .takeWorkers, post, g => g = .drained ∧ ∀ threads, post threads (.joining (threads.getD []))
  | .join thread, post, g => ∃ threads, g = .joining threads ∧ thread ∈ threads ∧ post () g
  | .putWorkers _, post, g => g = .serving ∧ post () g
  | _, _, _ => False

/-- The specification of each thread. -/
def partySpec : Party → Spec Call Call.Res Stage
  | .server => serves
  | .worker thread => works thread

theorem wp_worker (thread : Nat) : (worker thread).wp (works thread) (fun _ _ => True) .fresh :=
  ⟨rfl, rfl, fun _ => trivial⟩

theorem wp_spawnWorkers (n : Nat) {post : List Nat → Stage → Prop} {g : Stage}
    (hpost : ∀ threads, post threads g) : (spawnWorkers n).wp serves post g := by
  induction n generalizing post with
  | zero => exact hpost []
  | succ n ih =>
    intro thread
    show ((spawnWorkers n) >>= fun threads => pure (thread :: threads)).wp serves post g
    rw [wp_bind]
    exact ih fun threads => hpost (thread :: threads)

theorem wp_startUp (cpus workers : Nat) :
    (startUp cpus workers).wp serves (fun _ g => True) .serving := by
  unfold startUp newWorkers
  rw [wp_bind]
  exact wp_spawnWorkers _ fun threads => ⟨rfl, trivial⟩

/-- The threads that are left to be joined are among those that have been taken. -/
theorem wp_joinAll {threads left : List Nat} (hsub : left ⊆ threads) {post : Unit → Stage → Prop}
    (hpost : post () (.joining threads)) : (joinAll left).wp serves post (.joining threads) := by
  induction left with
  | nil => exact hpost
  | cons thread left ih =>
    obtain ⟨hmem, hrest⟩ := List.cons_subset.mp hsub
    exact ⟨threads, rfl, hmem, ih hrest⟩

/-- After the drain has begun the workers are joined. -/
theorem wp_shutdownWorkers {post : Unit → Stage → Prop} (hpost : ∀ threads, post () (.joining threads)) :
    shutdownWorkers.wp serves post .drained := by
  refine ⟨rfl, fun taken => ?_⟩
  cases taken with
  | none => exact hpost []
  | some threads => exact wp_joinAll (List.Subset.refl threads) (hpost threads)

/-- The drain begins, for the state is still Running. -/
theorem wp_startDrain {post : Unit → Stage → Prop} (hpost : post () .drained) :
    (onShutdown Shutdown.startDrain).wp serves post .stopping :=
  ⟨fun _ => ⟨rfl, hpost⟩, fun h => absurd rfl h⟩

theorem wp_terminate {threads : List Nat} {post : Unit → Stage → Prop}
    (hpost : post () (.joining threads)) :
    (onShutdown Shutdown.terminate).wp serves post (.joining threads) := by
  refine ⟨nofun, fun _ s => ?_⟩
  cases s with
  | terminated => exact hpost
  | running => exact ⟨⟨threads, rfl⟩, hpost⟩
  | draining => exact ⟨⟨threads, rfl⟩, hpost⟩

theorem wp_shutdownSequence : shutdownSequence.wp serves (fun _ _ => True) .stopping := by
  unfold shutdownSequence
  rw [wp_bind]
  refine wp_startDrain ?_
  rw [wp_bind]
  exact wp_shutdownWorkers fun threads => wp_terminate trivial

/-! ## What holds in every orderly run -/

/-- Until the server drains, the state is Running; from then on it has changed for every worker the server
    has, or has taken. -/
structure Ordered (w : Threads) (γ : Party → Stage) : Prop where
  serving : w.serving = true → γ .server = .serving
  running : γ .server = .serving ∨ γ .server = .stopping → w.shutdown.state.value = .running
  drained : γ .server = .drained → ∀ threads, w.workers = some threads →
    ∀ thread ∈ threads, ChangedSince w thread
  joining : ∀ threads, γ .server = .joining threads → ∀ thread ∈ threads, ChangedSince w thread
  fresh : ∀ thread, γ (.worker thread) = .fresh → w.subscribed thread = none
  seen : ∀ thread seen, w.subscribed thread = some seen → seen ≤ w.shutdown.state.version

/-- A change stays one while the versions go up and nobody subscribes again. -/
theorem ChangedSince.mono {w w' : Threads} {thread : Nat} (h : ChangedSince w thread)
    (hsubscribed : w'.subscribed thread = w.subscribed thread)
    (hversion : w.shutdown.state.version ≤ w'.shutdown.state.version) : ChangedSince w' thread := by
  obtain ⟨seen, hseen, hchanged⟩ := h
  exact ⟨seen, hsubscribed.trans hseen, hchanged.mono hversion⟩

variable {w : Threads} {γ : Party → Stage}

/-- A thread that has not subscribed is not one for which the state has changed. -/
theorem ne_of_changedSince {thread thread' : Nat} (h : ChangedSince w thread)
    (hnone : w.subscribed thread' = none) : thread ≠ thread' := by
  rintro rfl
  obtain ⟨seen, hseen, -⟩ := h
  rw [hnone] at hseen
  cases hseen

/-- What a worker does keeps `Ordered`. -/
theorem Ordered.performWorker (h : Ordered w γ) {thread : Nat} {call : Call}
    {post : call.Res → Stage → Prop} (hcall : works thread call post (γ (.worker thread))) :
    ∃ g, post (perform () call w).1 g ∧
      Ordered (perform () call w).2 (Function.update γ (.worker thread) g) := by
  have hsame : Function.update γ (.worker thread) (γ (.worker thread)) = γ := Function.update_eq_self _ γ
  cases call with
  | sendReady _ => exact ⟨_, hcall, hsame.symm ▸ ⟨h.serving, h.running, h.drained, h.joining, h.fresh, h.seen⟩⟩
  | changed _ => exact ⟨_, hcall, hsame.symm ▸ h⟩
  | exit _ => exact ⟨_, hcall, hsame.symm ▸ ⟨h.serving, h.running, h.drained, h.joining, h.fresh, h.seen⟩⟩
  | subscribe thread' =>
    obtain ⟨rfl, hfresh, hpost⟩ := hcall
    have hnone := h.fresh thread' hfresh
    have hother : ∀ t, ChangedSince w t → ChangedSince (perform () (.subscribe thread') w).2 t := by
      intro t hchanged
      refine hchanged.mono ?_ (Nat.le_refl _)
      exact Function.update_of_ne (ne_of_changedSince hchanged hnone) _ _
    have hserver : Function.update γ (.worker thread') .told .server = γ .server :=
      Function.update_of_ne (Party.server_ne_worker thread') _ _
    refine ⟨.told, hpost _, ?_, ?_, ?_, ?_, ?_, ?_⟩
    · rw [hserver]
      exact h.serving
    · rw [hserver]
      exact h.running
    · rw [hserver]
      exact fun hdrained threads hworkers t ht => hother t (h.drained hdrained threads hworkers t ht)
    · rw [hserver]
      exact fun threads hjoining t ht => hother t (h.joining threads hjoining t ht)
    · intro t ht
      by_cases heq : t = thread'
      · subst heq
        rw [Function.update_self] at ht
        cases ht
      · have hne : Party.worker t ≠ .worker thread' := fun hw => heq (Party.worker.inj hw)
        rw [Function.update_of_ne hne] at ht
        exact (Function.update_of_ne heq _ _).trans (h.fresh t ht)
    · intro t seen hseen
      by_cases heq : t = thread'
      · subst heq
        have hself : some w.shutdown.state.version = some seen :=
          (Function.update_self t _ w.subscribed).symm.trans hseen
        exact Nat.le_of_eq (Option.some.inj hself).symm
      · exact h.seen t seen ((Function.update_of_ne heq _ _).symm.trans hseen)
  | _ => exact hcall.elim

/-- What the server does keeps `Ordered`, if all workers have subscribed when the drain begins. -/
theorem Ordered.performServer (h : Ordered w γ) {call : Call} {post : call.Res → Stage → Prop}
    (hcall : serves call post (γ .server))
    (hok : call = .shutdown (.sendReplace .draining) → ∀ threads, w.workers = some threads →
      ∀ thread ∈ threads, w.subscribed thread ≠ none) :
    ∃ g, post (perform () call w).1 g ∧
      Ordered (perform () call w).2 (Function.update γ .server g) := by
  have hsame : Function.update γ .server (γ .server) = γ := Function.update_eq_self _ γ
  have hworker : ∀ g thread, Function.update γ .server g (.worker thread) = γ (.worker thread) :=
    fun g thread => Function.update_of_ne (Party.server_ne_worker thread).symm _ _
  cases call with
  | spawn => exact ⟨_, hcall _, hsame.symm ▸ ⟨h.serving, h.running, h.drained, h.joining, h.fresh, h.seen⟩⟩
  | recvReady _ => exact ⟨_, hcall, hsame.symm ▸ h⟩
  | join _ =>
    obtain ⟨threads, -, -, hpost⟩ := hcall
    exact ⟨_, hpost, hsame.symm ▸ h⟩
  | putWorkers threads =>
    obtain ⟨hserving, hpost⟩ := hcall
    refine ⟨_, hpost, hsame.symm ▸ ⟨h.serving, h.running, fun hdrained => ?_, h.joining, h.fresh, h.seen⟩⟩
    rw [hserving] at hdrained
    cases hdrained
  | takeWorkers =>
    obtain ⟨hdrained, hpost⟩ := hcall
    refine ⟨_, hpost _, fun hserving => ?_, fun hearly => ?_, fun hdrained' => ?_,
      fun threads hjoining => ?_, ?_, h.seen⟩
    · rw [h.serving hserving] at hdrained
      cases hdrained
    · rw [Function.update_self] at hearly
      rcases hearly with hearly | hearly <;> cases hearly
    · rw [Function.update_self] at hdrained'
      cases hdrained'
    · -- what has been taken are the workers there were
      rw [Function.update_self] at hjoining
      obtain rfl := Stage.joining.inj hjoining
      intro thread hmem
      cases htaken : w.workers with
      | none =>
        have hnil : thread ∈ ((none : Option (List Nat)).getD []) := htaken ▸ hmem
        cases hnil
      | some threads =>
        have hmem' : thread ∈ ((some threads).getD []) := htaken ▸ hmem
        exact (h.drained hdrained threads htaken thread hmem').mono rfl (Nat.le_refl _)
    · exact fun thread hfresh => h.fresh thread ((hworker _ thread).symm.trans hfresh)
  | shutdown op =>
    cases op with
    | state =>
      by_cases hstopping : γ .server = .stopping
      · have hpost := hcall.1 hstopping
        rw [← h.running (Or.inr hstopping), ← hstopping] at hpost
        exact ⟨_, hpost, hsame.symm ▸ h⟩
      · exact ⟨_, hcall.2 hstopping _, hsame.symm ▸ h⟩
    | sendReplace state =>
      have hmono : ∀ thread, ChangedSince w thread →
          ChangedSince (perform () (.shutdown (.sendReplace state)) w).2 thread :=
        fun thread hchanged => hchanged.mono rfl (Nat.le_succ _)
      have hseen : ∀ thread seen, w.subscribed thread = some seen →
          seen ≤ (w.shutdown.state.sendReplace state).version :=
        fun thread seen hsub => Nat.le_succ_of_le (h.seen thread seen hsub)
      cases state with
      | running => exact hcall.elim
      | draining =>
        obtain ⟨hstopping, hpost⟩ := hcall
        refine ⟨_, hpost, fun hs => ?_, fun hearly => ?_, fun _ threads hworkers thread hmem => ?_,
          fun threads hj => ?_, ?_, hseen⟩
        · rw [h.serving hs] at hstopping
          cases hstopping
        · rw [Function.update_self] at hearly
          rcases hearly with hearly | hearly <;> cases hearly
        · -- it has subscribed before, so this is a change for it
          obtain ⟨seen, hsub⟩ := Option.ne_none_iff_exists'.mp (hok rfl threads hworkers thread hmem)
          exact ⟨seen, hsub, Watch.changed_sendReplace (h.seen thread seen hsub) _⟩
        · rw [Function.update_self] at hj
          cases hj
        · exact fun thread hfresh => h.fresh thread ((hworker _ thread).symm.trans hfresh)
      | terminated =>
        obtain ⟨⟨threads, hjoining⟩, hpost⟩ := hcall
        refine ⟨_, hpost, hsame.symm ▸ ⟨h.serving, fun hearly => ?_, ?_, ?_, h.fresh, hseen⟩⟩
        · rw [hjoining] at hearly
          rcases hearly with hearly | hearly <;> cases hearly
        · exact fun hd threads hworkers thread hmem => hmono thread (h.drained hd threads hworkers thread hmem)
        · exact fun threads hj thread hmem => hmono thread (h.joining threads hj thread hmem)
    | _ => exact hcall.elim
  | _ => exact hcall.elim

/-! ## Runs -/

variable {cpus : Nat} {c c' : System}

/-- A call that is made was one that need not wait. -/
theorem step_call_eq_some {party : Party} :
    step cpus c (.call party) = some c' ↔
      enabled c party = true ∧ c.advance perform party () = some c' := by
  show (if enabled c party = true then c.advance perform party () else none) = some c' ↔ _
  rw [Option.ite_none_right_eq_some]

/-- Every thread keeps its specification, and `Ordered` holds. -/
def Kept (c : System) : Prop := ∃ γ, Pledged partySpec (fun _ _ => True) Ordered c γ

theorem kept_start (cpus : Nat) (drainTimeout : Duration) (workers : Nat) :
    Kept (.start cpus drainTimeout workers) := by
  refine ⟨fun party => match party with | .server => .serving | .worker _ => .fresh, ?_, fun party => ?_⟩
  · exact ⟨fun _ => rfl, fun _ => rfl, nofun, nofun, fun _ _ => rfl, nofun⟩
  · cases party with
    | server => exact wp_startUp cpus workers
    | worker thread => exact wp_worker thread

/-- **The step lemma**: every orderly step keeps `Ordered`. -/
theorem Kept.step (h : Kept c) {move : Move} (hok : Orderly c move) (hstep : step cpus c move = some c') :
    Kept c' := by
  obtain ⟨γ, hpledged⟩ := h
  have hinv := hpledged.inv
  cases move with
  | call party =>
    obtain ⟨-, hadvance⟩ := step_call_eq_some.mp hstep
    cases party with
    | server =>
      obtain ⟨g, hnext⟩ := hpledged.advance hadvance fun call k htask post hcall =>
        hinv.performServer hcall fun hcalled => hok (hcalled ▸ k) (by subst hcalled; exact htask)
      exact ⟨_, hnext⟩
    | worker thread =>
      obtain ⟨g, hnext⟩ := hpledged.advance hadvance fun call k htask post hcall =>
        hinv.performWorker hcall
      exact ⟨_, hnext⟩
  | hangup loaded =>
    -- the file does not load: there is nothing to do
    obtain ⟨-, heq⟩ := Option.ite_none_right_eq_some.mp hstep
    obtain rfl : loaded = none := hok
    cases heq
    have hsame := Function.update_eq_self Party.server γ
    exact ⟨_, hpledged.set .server (hsame.symm ▸ hinv) trivial⟩
  | terminate =>
    obtain ⟨hidle, heq⟩ := Option.ite_none_right_eq_some.mp hstep
    cases heq
    rw [Bool.and_eq_true] at hidle
    have hserving := hinv.serving hidle.1
    have hworker : ∀ thread, Function.update γ .server Stage.stopping (.worker thread) =
        γ (.worker thread) := fun thread =>
      Function.update_of_ne (Party.server_ne_worker thread).symm _ _
    refine ⟨_, hpledged.set .server (g := Stage.stopping) ⟨nofun, fun _ => hinv.running (Or.inl hserving),
      fun hd => ?_, fun threads hj => ?_, fun thread hfresh => ?_, hinv.seen⟩ wp_shutdownSequence⟩
    · rw [Function.update_self] at hd
      cases hd
    · rw [Function.update_self] at hj
      cases hj
    · exact hinv.fresh thread ((hworker thread).symm.trans hfresh)

/-- A server that keeps its specification joins a thread only when the state has changed for it. -/
theorem Kept.joinSafe (h : Kept c) : JoinSafe cpus c := by
  obtain ⟨γ, hpledged⟩ := h
  intro thread k htask
  have hserver := hpledged.each .server
  rw [htask] at hserver
  obtain ⟨threads, hjoining, hmem, -⟩ := hserver
  exact Or.inl (hpledged.inv.joining threads hjoining thread hmem)

/-- **Joins cannot block for ever** in any run, of any number of workers and under any signals, in which no
    configuration file loads on a reload and all workers have subscribed when the drain begins. -/
theorem joins_safe (cpus : Nat) (drainTimeout : Duration) (workers : Nat) (moves : List Move)
    (reached : System) (hmeets : Meets (step cpus) Orderly (.start cpus drainTimeout workers) moves)
    (hrun : run (step cpus) (.start cpus drainTimeout workers) moves = some reached) :
    JoinSafe cpus reached :=
  (meets_inv (fun _ _ _ h hok hstep => Kept.step h hok hstep) (kept_start cpus drainTimeout workers)
    hmeets hrun).joinSafe

/-- One worker is started, and is ready. -/
def oneWorkerReady : List Move :=
  [.call .server, .call (.worker 0), .call .server, .call .server]

/-- It has subscribed when the server is told to stop; then the server drains and comes to the join. -/
def orderlyStop : List Move :=
  oneWorkerReady ++ [.call (.worker 0), .terminate, .call .server, .call .server, .call .server]

/-- The join of an orderly stop is safe. -/
theorem orderly_stop_joins :
    ∃ reached, run (step 1) (.start 1 (fromSecs 30) 1) orderlyStop = some reached ∧
      (∃ k, reached.task .server = .call (.join 0) k) ∧ JoinSafe 1 reached := by
  refine ⟨_, rfl, ⟨_, rfl⟩, joins_safe 1 (fromSecs 30) 1 orderlyStop _ ?_ rfl⟩
  show Meets (step 1) Orderly _ (oneWorkerReady ++ _)
  refine (meets_append rfl).mpr ⟨?_, ?_⟩
  · refine (meets_cons rfl).mpr ⟨nofun, (meets_cons rfl).mpr ⟨trivial, ?_⟩⟩
    refine (meets_cons rfl).mpr ⟨nofun, (meets_cons rfl).mpr ⟨nofun, trivial⟩⟩
  · refine (meets_cons rfl).mpr ⟨trivial, (meets_cons rfl).mpr ⟨trivial, ?_⟩⟩
    refine (meets_cons rfl).mpr ⟨nofun, (meets_cons rfl).mpr ⟨?_, ?_⟩⟩
    · intro k _ threads hworkers thread hmem
      cases hworkers
      rw [List.mem_singleton.mp hmem]
      exact Option.some_ne_none 0
    · exact (meets_cons rfl).mpr ⟨nofun, trivial⟩

/-! ## Joins that block -/

/-- What is left of every worker is the work of a worker. -/
def Working (c : System) : Prop :=
  ∀ thread, ∃ g, (c.task (.worker thread)).wp (works thread) (fun _ _ => True) g

theorem working_start (cpus : Nat) (drainTimeout : Duration) (workers : Nat) :
    Working (.start cpus drainTimeout workers) := fun thread => ⟨.fresh, wp_worker thread⟩

/-- A worker that makes a call goes on as a worker. -/
theorem exists_post_of_works {thread : Nat} {call : Call} {post : call.Res → Stage → Prop} {g : Stage}
    (h : works thread call post g) (w : Threads) : ∃ g', post (perform () call w).1 g' := by
  cases call with
  | sendReady _ => exact ⟨g, h⟩
  | subscribe _ => exact ⟨.told, h.2.2 _⟩
  | changed _ => exact ⟨g, h⟩
  | exit _ => exact ⟨g, h⟩
  | _ => exact h.elim

/-- What the server does with its own body is nothing to the workers. -/
theorem Working.server (h : Working c) (w : Threads) (p : Body Unit) :
    Working ⟨w, Function.update c.task .server p⟩ := by
  intro thread
  show ∃ g, (Function.update c.task .server p (.worker thread)).wp (works thread) (fun _ _ => True) g
  rw [Function.update_of_ne (Party.server_ne_worker thread).symm]
  exact h thread

/-- Every step leaves the workers working. -/
theorem Working.step (h : Working c) {move : Move} (hstep : step cpus c move = some c') : Working c' := by
  cases move with
  | call party =>
    obtain ⟨-, hadvance⟩ := step_call_eq_some.mp hstep
    obtain ⟨call, k, htask, rfl⟩ := Pool.advance_eq_some.mp hadvance
    cases party with
    | server => exact h.server _ _
    | worker actor =>
      intro thread
      show ∃ g, (Function.update c.task (.worker actor) _ (.worker thread)).wp (works thread)
        (fun _ _ => True) g
      by_cases hactor : Party.worker thread = .worker actor
      · obtain rfl := Party.worker.inj hactor
        obtain ⟨g, hwp⟩ := h thread
        rw [htask] at hwp
        rw [Function.update_self]
        exact exists_post_of_works hwp c.state
      · rw [Function.update_of_ne hactor]
        exact h thread
  | hangup loaded =>
    obtain ⟨-, heq⟩ := Option.ite_none_right_eq_some.mp hstep
    cases heq
    exact h.server _ _
  | terminate =>
    obtain ⟨-, heq⟩ := Option.ite_none_right_eq_some.mp hstep
    cases heq
    exact h.server _ _

/-- A worker changes nothing for anybody: it leaves the state alone, and who subscribes now has seen it. -/
theorem changedSince_of_worker_step (h : Working c) {move : Move} (hworker : move.OfWorker)
    (hstep : step cpus c move = some c') {thread : Nat} (hchanged : ChangedSince c'.state thread) :
    ChangedSince c.state thread := by
  cases move with
  | call party =>
    cases party with
    | server => exact hworker.elim
    | worker actor =>
      obtain ⟨-, hadvance⟩ := step_call_eq_some.mp hstep
      obtain ⟨call, k, htask, rfl⟩ := Pool.advance_eq_some.mp hadvance
      obtain ⟨g, hwp⟩ := h actor
      rw [htask] at hwp
      cases call with
      | sendReady _ => exact hchanged
      | changed _ => exact hchanged
      | exit _ => exact hchanged
      | subscribe subscriber =>
        obtain ⟨seen, hseen, hlater⟩ := hchanged
        by_cases heq : thread = subscriber
        · subst heq
          have hself : some c.state.shutdown.state.version = some seen :=
            (Function.update_self thread _ c.state.subscribed).symm.trans hseen
          obtain rfl := Option.some.inj hself
          exact absurd hlater (Watch.not_changed_subscribe _)
        · exact ⟨seen, (Function.update_of_ne heq _ _).symm.trans hseen, hlater⟩
      | _ => exact hwp.elim
  | hangup loaded => exact hworker.elim
  | terminate => exact hworker.elim

/-- **Without the server nothing changes**: what the workers can get to is no more than there is. -/
theorem willChange_iff (h : Working c) {thread : Nat} :
    WillChange cpus c thread ↔ ChangedSince c.state thread := by
  refine ⟨?_, fun hchanged => ⟨[], c, nofun, rfl, hchanged⟩⟩
  rintro ⟨moves, c', hworkers, hrun, hchanged⟩
  induction moves generalizing c with
  | nil =>
    cases hrun
    exact hchanged
  | cons move moves ih =>
    obtain ⟨c₁, hstep, hrest⟩ := run_cons_eq_some.mp hrun
    obtain ⟨hworker, hworkers'⟩ := List.forall_mem_cons.mp hworkers
    exact changedSince_of_worker_step h hworker hstep (ih (h.step hstep) hworkers' hrest)

/-- So a join is safe only when the state has changed for the thread already. -/
theorem changedSince_of_joinSafe (h : Working c) {thread : Nat} {k : Unit → Body Unit}
    (htask : c.task .server = .call (.join thread) k) (hsafe : JoinSafe cpus c) :
    ChangedSince c.state thread :=
  (hsafe thread k htask).elim id (willChange_iff h).mp

/-- **A join while the state has never changed blocks for ever**, as every join of a reload does. -/
theorem not_joinSafe_of_running (h : Working c) (hversion : c.state.shutdown.state.version = 0)
    {thread : Nat} {k : Unit → Body Unit} (htask : c.task .server = .call (.join thread) k) :
    ¬ JoinSafe cpus c := by
  intro hsafe
  obtain ⟨seen, -, hchanged⟩ := changedSince_of_joinSafe h htask hsafe
  have hpos : seen < c.state.shutdown.state.version := hchanged
  omega

/-- **A join of a thread that has not subscribed blocks for ever**: when it does, it has seen it all. -/
theorem not_joinSafe_of_unsubscribed (h : Working c) {thread : Nat}
    (hnone : c.state.subscribed thread = none) {k : Unit → Body Unit}
    (htask : c.task .server = .call (.join thread) k) : ¬ JoinSafe cpus c := by
  intro hsafe
  exact ne_of_changedSince (changedSince_of_joinSafe h htask hsafe) hnone rfl

/-- The worker has subscribed; then a configuration file loads on SIGHUP. -/
def reloadRun : List Move :=
  oneWorkerReady ++ [.call (.worker 0), .hangup (some 1), .call .server]

/-- The worker is ready and has not subscribed when the server is told to stop. -/
def lateSubscription : List Move :=
  oneWorkerReady ++ [.terminate, .call .server, .call .server, .call .server]

/-- A reload comes to a join that can block for ever, and so does a stop that is quicker than a worker. -/
theorem joins_block :
    (∃ reached, run (step 1) (.start 1 (fromSecs 30) 1) reloadRun = some reached ∧ ¬ JoinSafe 1 reached) ∧
    ∃ reached, run (step 1) (.start 1 (fromSecs 30) 1) lateSubscription = some reached ∧
      ¬ JoinSafe 1 reached := by
  have hworking : ∀ moves reached, run (step 1) (.start 1 (fromSecs 30) 1) moves = some reached →
      Working reached := fun moves reached hrun =>
    run_inv (fun _ _ _ h hstep => Working.step h hstep) (working_start 1 (fromSecs 30) 1) hrun
  exact ⟨⟨_, rfl, not_joinSafe_of_running (hworking reloadRun _ rfl) rfl rfl⟩,
    ⟨_, rfl, not_joinSafe_of_unsubscribed (hworking lateSubscription _ rfl) rfl rfl⟩⟩

end Smppd.Bootstrap.Workers
