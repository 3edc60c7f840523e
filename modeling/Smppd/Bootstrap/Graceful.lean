/-
  The GRACEFUL SHUTDOWN of the server: listeners that accept and finish connections, and the shutdown
  sequence of `Server::run` (`src/bootstrap/server.rs`), which waits for the connections to drain.

  Connections are counted in three places: by each listener in `active_connections`, by each listener in
  the table of its connections, and by the shutdown coordinator in `Shutdown::active_connections`.  The
  sequence reads only the last.  The coordinator counts what is reported to it with `connection_opened`
  and `connection_closed`, and nobody reports: `handle_accept` does not, and neither does the session
  task.  So the count is always zero, the wait is over before it begins, and the sessions that are
  running are not waited for.

  `drains_gracefully_iff` says that the count is right, and the wait covers every session, exactly in the
  runs in which nobody ever connects.
-/
import Smppd.Listener.Acceptor
import Smppd.Bootstrap.Shutdown

set_option linter.unusedVariables false

namespace Smppd.Bootstrap.Graceful

open Smppd.Store Smppd.Listener Prog Machine

/-! ## The sequence -/

/-- A method of the coordinator, called when nobody else calls one. -/
def alone {α : Type} (p : Shutdown.Body α) (s : Shutdown) : Shutdown :=
  (p.alone (fun _ : Unit => Shutdown.access) () s).2

/-- How the wait for the connections to drain has ended, and how many sessions were running. -/
structure DrainEnd where
  timedOut : Bool
  running : Nat

/-- Where the server is. -/
inductive Phase where
  /-- In the main loop. -/
  | serving
  /-- About to check the count of connections, with a receiver that has seen this version of the state. -/
  | checking (deadline : Instant) (seen : Nat)
  /-- Waiting for a change of the state. -/
  | waiting (deadline : Instant) (seen : Nat)
  /-- Done with waiting. -/
  | drained (drainEnd : DrainEnd)
  /-- Done. -/
  | stopped (drainEnd : DrainEnd)

/-- How the wait has ended, once it has. -/
def Phase.drainEnd : Phase → Option DrainEnd
  | .drained drainEnd => some drainEnd
  | .stopped drainEnd => some drainEnd
  | _ => none

/-- The server, its listeners, and which of them have left their accept loop. -/
structure Gateway (Ip Net : Type) where
  listeners : Listeners Ip Net
  left : Nat → Bool := fun _ => false
  shutdown : Shutdown
  now : Instant
  server : Phase := .serving

/-- The accepted connections whose session has not finished. -/
def Gateway.running {Ip Net : Type} (g : Gateway Ip Net) : Nat :=
  (g.listeners.listeners.map fun l => l.connections.entries.length).sum

/-- What can happen next. -/
inductive Act (Ip : Type) where
  /-- Time passes. -/
  | wait (d : Duration)
  /-- A connection arrives or finishes, or an announcement is taken. -/
  | listener (happening : Happening Ip)
  /-- The listener in this place is told of the shutdown and leaves its accept loop. -/
  | leave (place : Nat)
  /-- SIGINT or SIGTERM: the drain begins. -/
  | signal
  /-- The server goes on with its wait. -/
  | poll
  /-- The wait has taken too long. -/
  | timeout
  /-- The workers are gone, and the server terminates. -/
  | terminate

section System

variable {Ip Net : Type}

/-- The listener that the happening is about is still in its accept loop, if it has to be. -/
def Gateway.listening (g : Gateway Ip Net) : Happening Ip → Bool
  | .arrive place _ => !g.left place
  | _ => true

/-- One step of the server and its listeners. -/
def step (g : Gateway Ip Net) : Act Ip → Option (Gateway Ip Net)
  | .wait d => some { g with now := g.now + d }
  | .listener happening =>
    if g.listening happening then
      (g.listeners.step happening).map fun listeners => { g with listeners := listeners }
    else none
  | .leave place =>
    if g.shutdown.state.Changed 0 then some { g with left := Function.update g.left place true } else none
  | .signal =>
    match g.server with
    | .serving =>
      let shutdown := alone Shutdown.startDrain g.shutdown
      some { g with
        shutdown := shutdown
        server := .checking (g.now + shutdown.drainTimeout) shutdown.state.subscribe }
    | _ => none
  | .poll =>
    match g.server with
    | .checking deadline seen =>
      if g.shutdown.activeConnections = 0 then
        some { g with server := .drained ⟨false, g.running⟩ }
      else some { g with server := .waiting deadline seen }
    | .waiting deadline seen =>
      if g.shutdown.state.Changed seen then
        if g.shutdown.state.value = .terminated then
          some { g with server := .drained ⟨false, g.running⟩ }
        else some { g with server := .checking deadline g.shutdown.state.version }
      else none
    | _ => none
  | .timeout =>
    match g.server with
    | .waiting deadline _ =>
      if deadline ≤ g.now then some { g with server := .drained ⟨true, g.running⟩ } else none
    | _ => none
  | .terminate =>
    match g.server with
    | .drained drainEnd =>
      some { g with shutdown := alone Shutdown.terminate g.shutdown, server := .stopped drainEnd }
    | _ => none

/-- The server in its main loop, with the listeners of its configuration. -/
def Gateway.start (configs : List ListenerConfig) (drainTimeout : Duration) (now : Instant) :
    Gateway Ip Net where
  listeners := ⟨configs.map .started, []⟩
  shutdown := .new drainTimeout
  now := now

/-! ## Covering every session -/

/-- The coordinator counts the sessions that are running; the wait has ended in time only when none was;
    and the server terminates after it. -/
structure Covering (g : Gateway Ip Net) : Prop where
  counted : g.shutdown.activeConnections.toNat = g.running
  drained : ∀ drainEnd, g.server.drainEnd = some drainEnd → drainEnd.timedOut = false →
    drainEnd.running = 0
  last : g.shutdown.state.value = .terminated → g.server.drainEnd ≠ none

/-- The drain covers every session, all along the run. -/
def DrainsGracefully (start : Gateway Ip Net) (acts : List (Act Ip)) : Prop :=
  ∀ before after g, acts = before ++ after → run step start before = some g → Covering g

/-- The act is not the arrival of a connection that is accepted. -/
def AcceptsNobody (g : Gateway Ip Net) : Act Ip → Prop
  | .listener (.arrive place arrival) =>
    ∀ l, g.listeners.listeners[place]? = some l → (l.handleAccept arrival).2 = none
  | _ => True

/-! ## What holds all along -/

/-- Nothing has been reported to the coordinator, and its state is where the server is. -/
structure Unreported (g : Gateway Ip Net) : Prop where
  count : g.shutdown.activeConnections = 0
  serving : g.server = .serving → g.shutdown.state.value = .running
  last : g.shutdown.state.value = .terminated → g.server.drainEnd ≠ none

/-- `start_drain`, when the state is Running. -/
theorem startDrain_alone {s : Shutdown} (h : s.state.value = .running) :
    alone Shutdown.startDrain s = { s with state := s.state.sendReplace .draining } := by
  unfold alone Shutdown.startDrain
  simp only [request_bind, alone_call, Shutdown.access, h]
  rfl

/-- `terminate` leaves the count alone, and the state Terminated. -/
theorem terminate_alone (s : Shutdown) :
    (alone Shutdown.terminate s).activeConnections = s.activeConnections ∧
      (alone Shutdown.terminate s).state.value = .terminated := by
  obtain ⟨⟨value, version⟩, drainTimeout, activeConnections⟩ := s
  cases value with
  | running => exact ⟨rfl, rfl⟩
  | draining => exact ⟨rfl, rfl⟩
  | terminated => exact ⟨rfl, rfl⟩

/-- **What a step does**, and when it is taken. -/
inductive Stepped (g : Gateway Ip Net) : Act Ip → Gateway Ip Net → Prop where
  | wait (d : Duration) : Stepped g (.wait d) { g with now := g.now + d }
  | listener (happening : Happening Ip) (listeners : Listeners Ip Net) (hlistening : g.listening happening = true)
    (hhappens : g.listeners.step happening = some listeners) :
    Stepped g (.listener happening) { g with listeners := listeners }
  | leave (place : Nat) (htold : g.shutdown.state.Changed 0) :
    Stepped g (.leave place) { g with left := Function.update g.left place true }
  | signal (hserver : g.server = .serving) :
    Stepped g .signal { g with
      shutdown := alone Shutdown.startDrain g.shutdown
      server := .checking (g.now + (alone Shutdown.startDrain g.shutdown).drainTimeout)
        (alone Shutdown.startDrain g.shutdown).state.subscribe }
  /-- The count is zero. -/
  | counted (deadline : Instant) (seen : Nat) (hserver : g.server = .checking deadline seen)
    (hcount : g.shutdown.activeConnections = 0) : Stepped g .poll { g with server := .drained ⟨false, g.running⟩ }
  | uncounted (deadline : Instant) (seen : Nat) (hserver : g.server = .checking deadline seen)
    (hcount : g.shutdown.activeConnections ≠ 0) : Stepped g .poll { g with server := .waiting deadline seen }
  /-- The state has changed, to Terminated. -/
  | terminated (deadline : Instant) (seen : Nat) (hserver : g.server = .waiting deadline seen)
    (hchanged : g.shutdown.state.Changed seen) (hvalue : g.shutdown.state.value = .terminated) :
    Stepped g .poll { g with server := .drained ⟨false, g.running⟩ }
  | changed (deadline : Instant) (seen : Nat) (hserver : g.server = .waiting deadline seen)
    (hchanged : g.shutdown.state.Changed seen) (hvalue : g.shutdown.state.value ≠ .terminated) :
    Stepped g .poll { g with server := .checking deadline g.shutdown.state.version }
  | timeout (deadline : Instant) (seen : Nat) (hserver : g.server = .waiting deadline seen)
    (hlate : deadline ≤ g.now) : Stepped g .timeout { g with server := .drained ⟨true, g.running⟩ }
  | terminate (drainEnd : DrainEnd) (hserver : g.server = .drained drainEnd) :
    Stepped g .terminate { g with shutdown := alone Shutdown.terminate g.shutdown, server := .stopped drainEnd }

theorem stepped {g g' : Gateway Ip Net} {act : Act Ip} (hstep : step g act = some g') : Stepped g act g' := by
  cases act with
  | wait d =>
    cases hstep
    exact .wait d
  | listener happening =>
    obtain ⟨hlistening, hlisteners⟩ := Option.ite_none_right_eq_some.mp hstep
    obtain ⟨listeners, hhappens, rfl⟩ := Option.map_eq_some_iff.mp hlisteners
    exact .listener happening listeners hlistening hhappens
  | leave place =>
    obtain ⟨htold, heq⟩ := Option.ite_none_right_eq_some.mp hstep
    cases heq
    exact .leave place htold
  | signal =>
    cases hserver : g.server with
    | serving =>
      simp only [step, hserver] at hstep
      cases hstep
      exact .signal hserver
    | _ =>
      simp only [step, hserver] at hstep
      cases hstep
  | poll =>
    cases hserver : g.server with
    | checking deadline seen =>
      simp only [step, hserver] at hstep
      split at hstep
      · rename_i hcount
        cases hstep
        exact .counted deadline seen hserver hcount
      · rename_i hcount
        cases hstep
        exact .uncounted deadline seen hserver hcount
    | waiting deadline seen =>
      simp only [step, hserver] at hstep
      obtain ⟨hchanged, heq⟩ := Option.ite_none_right_eq_some.mp hstep
      split at heq
      · rename_i hvalue
        cases heq
        exact .terminated deadline seen hserver hchanged hvalue
      · rename_i hvalue
        cases heq
        exact .changed deadline seen hserver hchanged hvalue
    | _ =>
      simp only [step, hserver] at hstep
      cases hstep
  | timeout =>
    cases hserver : g.server with
    | waiting deadline seen =>
      simp only [step, hserver] at hstep
      obtain ⟨hlate, heq⟩ := Option.ite_none_right_eq_some.mp hstep
      cases heq
      exact .timeout deadline seen hserver hlate
    | _ =>
      simp only [step, hserver] at hstep
      cases hstep
  | terminate =>
    cases hserver : g.server with
    | drained drainEnd =>
      simp only [step, hserver] at hstep
      cases hstep
      exact .terminate drainEnd hserver
    | _ =>
      simp only [step, hserver] at hstep
      cases hstep

/-- **Nobody reports to the coordinator**, whatever happens. -/
theorem Unreported.step {g g' : Gateway Ip Net} (h : Unreported g) {act : Act Ip}
    (hstep : step g act = some g') : Unreported g' := by
  cases stepped hstep with
  | wait d => exact ⟨h.count, h.serving, h.last⟩
  | listener happening listeners hlistening hhappens => exact ⟨h.count, h.serving, h.last⟩
  | leave place htold => exact ⟨h.count, h.serving, h.last⟩
  | signal hserver =>
    rw [startDrain_alone (h.serving hserver)]
    exact ⟨h.count, nofun, nofun⟩
  | counted deadline seen hserver hcount => exact ⟨h.count, nofun, fun _ => Option.some_ne_none _⟩
  | uncounted deadline seen hserver hcount => exact absurd h.count hcount
  | terminated deadline seen hserver hchanged hvalue => exact ⟨h.count, nofun, fun _ => Option.some_ne_none _⟩
  | changed deadline seen hserver hchanged hvalue => exact ⟨h.count, nofun, fun hterminated => absurd hterminated hvalue⟩
  | timeout deadline seen hserver hlate => exact ⟨h.count, nofun, fun _ => Option.some_ne_none _⟩
  | terminate drainEnd hserver =>
    exact ⟨(terminate_alone g.shutdown).1.trans h.count, nofun, fun _ => Option.some_ne_none _⟩

/-! ## Connections -/

theorem running_eq_zero_iff {g : Gateway Ip Net} :
    g.running = 0 ↔ ∀ l ∈ g.listeners.listeners, l.connections.entries = [] := by
  unfold Gateway.running
  rw [List.sum_eq_zero_iff_forall_eq_nat, List.forall_mem_map]
  simp only [List.length_eq_zero_iff]

/-- What `handle_accept` does to the connections of its listener: nothing, or it adds one. -/
theorem handleAccept_connections (l : Listener Ip Net) (arrival : Arrival Ip) :
    (l.handleAccept arrival).2 = none ∧ (l.handleAccept arrival).1.connections = l.connections ∨
      (l.handleAccept arrival).2 ≠ none ∧ (l.handleAccept arrival).1.connections.entries ≠ [] := by
  unfold Listener.handleAccept
  by_cases hlimit : l.connectionLimit = 0
  · rw [if_pos hlimit]
    exact Or.inl ⟨rfl, rfl⟩
  · rw [if_neg hlimit]
    dsimp only
    split
    · exact Or.inl ⟨rfl, rfl⟩
    · split
      · exact Or.inl ⟨rfl, rfl⟩
      · refine Or.inr ⟨Option.some_ne_none _, ?_⟩
        show (l.connections.insert _ _).entries ≠ []
        rw [AList.entries_insert]
        exact List.cons_ne_nil _ _

/-- A release concerns permits. -/
theorem release_connections (ls : Listeners Ip Net) (place : Nat)
    (h : ∀ l ∈ ls.listeners, l.connections.entries = []) :
    ∀ l ∈ (ls.release place).listeners, l.connections.entries = [] := by
  intro l hl
  obtain ⟨i, hi, hget⟩ := List.getElem_of_mem hl
  have hlength : i < ls.listeners.length := by
    simpa [Listeners.release] using hi
  have hmem := h _ (List.getElem_mem hlength)
  rw [← hget]
  simp only [Listeners.release, List.getElem_modify]
  split
  · exact hmem
  · exact hmem

/-- **Where no session is running, one is after a happening exactly when a connection is accepted.** -/
theorem running_step {g : Gateway Ip Net} (h : g.running = 0) {happening : Happening Ip}
    {listeners : Listeners Ip Net} (hstep : g.listeners.step happening = some listeners) :
    Gateway.running { g with listeners := listeners } = 0 ↔ AcceptsNobody g (.listener happening) := by
  have hempty := running_eq_zero_iff.mp h
  rw [running_eq_zero_iff]
  show (∀ l ∈ listeners.listeners, l.connections.entries = []) ↔ _
  cases happening with
  | arrive place arrival =>
    obtain ⟨l, hl, hrest⟩ := Option.bind_eq_some_iff.mp hstep
    have hmem := List.mem_of_getElem? hl
    have haccepts : AcceptsNobody g (.listener (.arrive place arrival)) ↔
        (l.handleAccept arrival).2 = none :=
      ⟨fun hall => hall l hl, fun hnone l' hl' => by rwa [← Option.some.inj (hl.symm.trans hl')]⟩
    rw [haccepts]
    have hset : ∀ announced, listeners = ⟨g.listeners.listeners.set place (l.handleAccept arrival).1,
        announced⟩ → ((∀ l ∈ listeners.listeners, l.connections.entries = []) ↔
          (l.handleAccept arrival).1.connections.entries = []) := by
      rintro announced rfl
      refine ⟨fun hall => hall _ (List.mem_set (List.getElem?_eq_some_iff.mp hl).1 _), ?_⟩
      intro hnew l' hl'
      rcases List.mem_or_eq_of_mem_set hl' with hold | rfl
      · exact hempty l' hold
      · exact hnew
    rcases handleAccept_connections l arrival with ⟨hnone, hsame⟩ | ⟨hsome, hnew⟩
    · dsimp only at hrest
      rw [hnone] at hrest
      rw [hset _ (Option.some.inj hrest).symm, hsame]
      exact iff_of_true (hempty l hmem) hnone
    · obtain ⟨accepted, haccepted⟩ := Option.ne_none_iff_exists'.mp hsome
      dsimp only at hrest
      rw [haccepted] at hrest
      obtain ⟨-, heq⟩ := Option.ite_none_right_eq_some.mp hrest
      rw [hset _ (Option.some.inj heq).symm]
      exact iff_of_false hnew hsome
  | finish place id =>
    -- there is nobody to finish
    obtain ⟨l, hl, hrest⟩ := Option.bind_eq_some_iff.mp hstep
    obtain ⟨connection, hlookup, -⟩ := Option.map_eq_some_iff.mp hrest
    have hnil := hempty l (List.mem_of_getElem? hl)
    have hnone : l.connections.lookup id = none := by
      show l.connections.entries.dlookup id = none
      rw [hnil]
      rfl
    rw [hnone] at hlookup
    cases hlookup
  | accept =>
    refine iff_of_true ?_ trivial
    unfold Listeners.step at hstep
    dsimp only at hstep
    split at hstep
    · cases hstep
    · split at hstep
      · cases hstep
        split
        · exact hempty
        · exact release_connections { g.listeners with announced := _ } _ hempty
      · cases hstep
        exact hempty

/-! ## Every step -/

/-- Where nothing is reported, the count is right only when no session is running. -/
theorem Unreported.covering_iff {g : Gateway Ip Net} (h : Unreported g) :
    Covering g ↔ g.running = 0 ∧ ∀ drainEnd, g.server.drainEnd = some drainEnd →
      drainEnd.timedOut = false → drainEnd.running = 0 := by
  constructor
  · intro hcovering
    have hcount := hcovering.counted
    rw [h.count] at hcount
    exact ⟨hcount.symm, hcovering.drained⟩
  · rintro ⟨hrunning, hdrained⟩
    exact ⟨by rw [h.count, hrunning]; rfl, hdrained, h.last⟩

/-- A step of the server alone, from where every session is covered. -/
theorem Covering.server {g : Gateway Ip Net} (hg : Covering g) (h : Unreported g) {shutdown : Shutdown}
    {now : Instant} {left : Nat → Bool} {server : Phase}
    (hnext : Unreported { g with shutdown := shutdown, now := now, left := left, server := server })
    (hend : ∀ drainEnd, server.drainEnd = some drainEnd →
      g.server.drainEnd = some drainEnd ∨ drainEnd.running = g.running) :
    Covering { g with shutdown := shutdown, now := now, left := left, server := server } := by
  obtain ⟨hrunning, hdrained⟩ := h.covering_iff.mp hg
  refine hnext.covering_iff.mpr ⟨hrunning, fun drainEnd hdrainEnd htimely => ?_⟩
  rcases hend drainEnd hdrainEnd with hold | hnew
  · exact hdrained drainEnd hold htimely
  · exact hnew.trans hrunning

/-- **A step covers every session exactly when it accepts nobody.** -/
theorem Covering.step_iff {g g' : Gateway Ip Net} (hg : Covering g) (h : Unreported g) {act : Act Ip}
    (hstep : step g act = some g') : Covering g' ↔ AcceptsNobody g act := by
  have hnext := h.step hstep
  cases stepped hstep with
  | listener happening listeners hlistening hhappens =>
    obtain ⟨hrunning, hdrained⟩ := h.covering_iff.mp hg
    rw [hnext.covering_iff, running_step hrunning hhappens]
    exact and_iff_left hdrained
  | wait d => exact iff_of_true (hg.server h hnext fun _ hd => Or.inl hd) trivial
  | leave place htold => exact iff_of_true (hg.server h hnext fun _ hd => Or.inl hd) trivial
  | signal hserver => exact iff_of_true (hg.server h hnext nofun) trivial
  | counted deadline seen hserver hcount =>
    exact iff_of_true (hg.server h hnext fun _ hd => Or.inr (Option.some.inj hd ▸ rfl)) trivial
  | uncounted deadline seen hserver hcount => exact iff_of_true (hg.server h hnext nofun) trivial
  | terminated deadline seen hserver hchanged hvalue =>
    exact iff_of_true (hg.server h hnext fun _ hd => Or.inr (Option.some.inj hd ▸ rfl)) trivial
  | changed deadline seen hserver hchanged hvalue => exact iff_of_true (hg.server h hnext nofun) trivial
  | timeout deadline seen hserver hlate =>
    exact iff_of_true (hg.server h hnext fun _ hd => Or.inr (Option.some.inj hd ▸ rfl)) trivial
  | terminate drainEnd hserver =>
    refine iff_of_true (hg.server h hnext fun _ hd => Or.inl ?_) trivial
    rw [hserver]
    exact hd

/-- **The drain covers every session exactly when nobody ever connects**: for every set of listeners and
    every run of them and of the shutdown sequence, all along it the coordinator counts the sessions that
    are running, the wait ends in time only when none is, and the server terminates after it, if and only
    if no connection is accepted in it. -/
theorem drains_gracefully_iff (configs : List ListenerConfig) (drainTimeout : Duration) (now : Instant)
    (acts : List (Act Ip)) (reached : Gateway Ip Net)
    (hrun : run step (.start configs drainTimeout now) acts = some reached) :
    DrainsGracefully (.start configs drainTimeout now : Gateway Ip Net) acts ↔
      Meets step AcceptsNobody (.start configs drainTimeout now : Gateway Ip Net) acts := by
  have hunreported : Unreported (.start configs drainTimeout now : Gateway Ip Net) :=
    ⟨rfl, fun _ => rfl, nofun⟩
  have hnobody : (Gateway.start configs drainTimeout now : Gateway Ip Net).running = 0 := by
    refine running_eq_zero_iff.mpr fun l hl => ?_
    obtain ⟨config, -, rfl⟩ := List.mem_map.mp hl
    rfl
  have hcovering := hunreported.covering_iff.mpr ⟨hnobody, nofun⟩
  exact (meets_iff_always (fun _ _ _ h hstep => Unreported.step h hstep)
    (fun _ _ _ h hg hstep => Covering.step_iff hg h hstep) hunreported hcovering hrun).symm

end System

/-- A listener that takes one connection at a time. -/
def oneAtATime : ListenerConfig := { name := "main", address := "0.0.0.0:2775", limits := { maxConnections := 1 } }

/-- A server to which nobody connects is told to stop. -/
def nobodyConnects : List (Act Unit) := [.signal, .poll, .terminate]

/-- It drains gracefully. -/
theorem drains_gracefully_empty :
    DrainsGracefully (.start [oneAtATime] (fromSecs 30) 0 : Gateway Unit Unit) nobodyConnects := by
  refine (drains_gracefully_iff [oneAtATime] (fromSecs 30) 0 nobodyConnects _ rfl).mpr ?_
  exact (meets_cons rfl).mpr ⟨trivial, (meets_cons rfl).mpr ⟨trivial, (meets_cons rfl).mpr
    ⟨trivial, trivial⟩⟩⟩

/-- Somebody is connected when the server is told to stop. -/
def somebodyConnected : List (Act Unit) :=
  [.listener (.arrive 0 (.smooth ())), .signal, .poll, .terminate]

/-- The wait is over at once, with a session running, and the server terminates. -/
theorem drain_leaves_session :
    (∃ g : Gateway Unit Unit,
      run step (.start [oneAtATime] (fromSecs 30) 0) somebodyConnected = some g ∧ g.running = 1 ∧
        g.server.drainEnd = some ⟨false, 1⟩ ∧ g.shutdown.state.value = .terminated) ∧
    ¬ DrainsGracefully (.start [oneAtATime] (fromSecs 30) 0 : Gateway Unit Unit) somebodyConnected := by
  refine ⟨⟨_, rfl, rfl, rfl, rfl⟩, fun h => ?_⟩
  have hcounted := (h [.listener (.arrive 0 (.smooth ()))] _ _ rfl rfl).counted
  exact absurd hcounted (by decide)

end Smppd.Bootstrap.Graceful
