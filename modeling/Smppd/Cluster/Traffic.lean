/-
  TRAFFIC at an endpoint: any number of callers of `get_connection`, and the count of their connections.

  A caller asks for a connection, waits for the pool, has a `PooledConnection` and drops it.  Meanwhile
  others do the same, time passes, health checks come in, and somebody may call `return_connection`.  The
  pool gives a connection when it likes, but there are never more than `max_connections`: each has a permit.

  `return_connection` is the only method that lowers `active_connections`, and dropping a connection does
  not call it: the destructor knows the pool, and not the endpoint.  So the count that the load balancers
  compare is the number of connections EVER given.  `load_counted_iff`: it is the number of those alive,
  all along a run, exactly if none is dropped in it.
-/
import Smppd.Lib.Machine
import Smppd.Cluster.Endpoint
import Mathlib.Data.Finset.Card

set_option linter.unusedVariables false

namespace Smppd.Cluster.Traffic

open Smppd.Store Machine

/-! ## The endpoint and its callers -/

/-- A caller, for one connection. -/
abbrev Tid := Nat

/-- The endpoint, the time, who waits for the pool, and whose `PooledConnection` is alive. -/
structure System where
  endpoint : Endpoint.Cells
  now : Instant
  waiting : Finset Tid := ∅
  alive : Finset Tid := ∅

/-- What can happen next. -/
inductive Move where
  /-- Time passes. -/
  | wait (d : Duration)
  /-- `get_connection` is called. -/
  | getConnection (t : Tid)
  /-- The pool answers, with a connection or without. -/
  | pooled (t : Tid) (conn : Bool)
  /-- A `PooledConnection` is dropped. -/
  | drop (t : Tid)
  /-- `return_connection` is called. -/
  | returnConnection (success : Bool)
  /-- A health check ends. -/
  | check (result : HealthState)

/-- A new endpoint. -/
def System.start (config : HealthCheckConfig) (now : Instant) : System := ⟨.new config, now, ∅, ∅⟩

/-- The caller has no connection and is not waiting for one. -/
def System.Free (c : System) (t : Tid) : Prop := t ∉ c.waiting ∧ t ∉ c.alive

instance (c : System) (t : Tid) : Decidable (c.Free t) := inferInstanceAs (Decidable (_ ∧ _))

/-- One step of the traffic, at an endpoint with so many permits. -/
def step (maxConnections : UInt64) (c : System) : Move → Option System
  | .wait d => some { c with now := c.now + d }
  | .getConnection t =>
    if c.Free t then
      let (asks, endpoint) := c.endpoint.getConnection c.now
      some { c with endpoint := endpoint, waiting := if asks then insert t c.waiting else c.waiting }
    else none
  | .pooled t conn =>
    if t ∈ c.waiting ∧ (conn = true → c.alive.card < maxConnections.toNat) then
      some { c with
        endpoint := c.endpoint.gotConnection c.now conn
        waiting := c.waiting.erase t
        alive := if conn then insert t c.alive else c.alive }
    else none
  | .drop t => if t ∈ c.alive then some { c with alive := c.alive.erase t } else none
  | .returnConnection success => some { c with endpoint := c.endpoint.returnConnection c.now success }
  | .check result => some { c with endpoint := c.endpoint.performHealthCheck result }

/-! ## What each method does to the count -/

section Count

variable (self : Endpoint.Cells) (now : Instant)

theorem gotConnection_active (conn : Bool) :
    (self.gotConnection now conn).activeConnections =
      if conn then self.activeConnections + 1 else self.activeConnections := by
  cases conn <;> rfl

theorem returnConnection_active (success : Bool) :
    (self.returnConnection now success).activeConnections = self.activeConnections - 1 := by
  cases success <;> rfl

end Count

/-! ## The count -/

/-- `active_connections` is the number of connections alive. -/
def Counted (c : System) : Prop := c.endpoint.activeConnections.toNat = c.alive.card

/-- There are no more connections than permits, and nobody has one who waits for one. -/
structure Bounded (maxConnections : UInt64) (c : System) : Prop where
  card : c.alive.card ≤ maxConnections.toNat
  apart : ∀ t ∈ c.waiting, t ∉ c.alive

/-- The move gives no connection back. -/
def Move.Keeps : Move → Prop
  | .drop _ => False
  | .returnConnection _ => False
  | _ => True

variable {maxConnections : UInt64} {c c' : System}

/-- A call of `get_connection` is let through to the pool, or not. -/
theorem step_getConnection {t : Tid} (h : step maxConnections c (.getConnection t) = some c') :
    c.Free t ∧ c' = { c with
      endpoint := (c.endpoint.getConnection c.now).2
      waiting := if (c.endpoint.getConnection c.now).1 then insert t c.waiting else c.waiting } := by
  obtain ⟨hfree, heq⟩ := Option.ite_none_right_eq_some.mp h
  exact ⟨hfree, (Option.some.inj heq).symm⟩

/-- The pool answers one who waits. -/
theorem step_pooled {t : Tid} {conn : Bool} (h : step maxConnections c (.pooled t conn) = some c') :
    (t ∈ c.waiting ∧ (conn = true → c.alive.card < maxConnections.toNat)) ∧ c' = { c with
      endpoint := c.endpoint.gotConnection c.now conn
      waiting := c.waiting.erase t
      alive := if conn then insert t c.alive else c.alive } := by
  obtain ⟨hcond, heq⟩ := Option.ite_none_right_eq_some.mp h
  exact ⟨hcond, (Option.some.inj heq).symm⟩

/-- A connection that is dropped was alive. -/
theorem step_drop {t : Tid} (h : step maxConnections c (.drop t) = some c') :
    t ∈ c.alive ∧ c' = { c with alive := c.alive.erase t } := by
  obtain ⟨halive, heq⟩ := Option.ite_none_right_eq_some.mp h
  exact ⟨halive, (Option.some.inj heq).symm⟩

/-- **The step lemma.** -/
theorem Bounded.step (h : Bounded maxConnections c) {move : Move}
    (hstep : Traffic.step maxConnections c move = some c') : Bounded maxConnections c' := by
  cases move with
  | wait d =>
    cases hstep
    exact ⟨h.card, h.apart⟩
  | getConnection t =>
    obtain ⟨⟨-, hfree⟩, rfl⟩ := step_getConnection hstep
    refine ⟨h.card, fun t' ht' => ?_⟩
    dsimp only at ht'
    split at ht'
    · rcases Finset.mem_insert.mp ht' with rfl | hmem
      · exact hfree
      · exact h.apart t' hmem
    · exact h.apart t' ht'
  | pooled t conn =>
    obtain ⟨⟨hwaiting, hroom⟩, rfl⟩ := step_pooled hstep
    cases conn with
    | true =>
      refine ⟨?_, fun t' ht' => ?_⟩
      · show (insert t c.alive).card ≤ _
        rw [Finset.card_insert_of_notMem (h.apart t hwaiting)]
        exact hroom rfl
      · obtain ⟨hne, hmem⟩ := Finset.mem_erase.mp ht'
        show t' ∉ insert t c.alive
        rw [Finset.mem_insert]
        exact fun hor => hor.elim hne (h.apart t' hmem)
    | false => exact ⟨h.card, fun t' ht' => h.apart t' (Finset.mem_of_mem_erase ht')⟩
  | drop t =>
    obtain ⟨-, rfl⟩ := step_drop hstep
    refine ⟨Nat.le_trans (Finset.card_le_card (Finset.erase_subset t c.alive)) h.card, fun t' ht' hmem => ?_⟩
    exact h.apart t' ht' (Finset.mem_of_mem_erase hmem)
  | returnConnection success =>
    cases hstep
    exact ⟨h.card, h.apart⟩
  | check result =>
    cases hstep
    exact ⟨h.card, h.apart⟩

/-- A counter that is lowered is another, even if it wraps. -/
theorem toNat_sub_one_ne (n : UInt64) : (n - 1).toNat ≠ n.toNat := by
  intro h
  have hone : (1 : UInt64) = 0 := by
    have hsub : n - 1 = n := UInt64.toNat_inj.mp h
    grind
  cases hone

/-- **A step keeps the count right exactly when it gives nothing back.** -/
theorem Bounded.counted_iff (h : Bounded maxConnections c) (hcounted : Counted c) {move : Move}
    (hstep : Traffic.step maxConnections c move = some c') : Counted c' ↔ move.Keeps := by
  unfold Counted at hcounted ⊢
  cases move with
  | wait d =>
    cases hstep
    exact iff_of_true hcounted trivial
  | getConnection t =>
    obtain ⟨-, rfl⟩ := step_getConnection hstep
    obtain ⟨cb, hframe⟩ := c.endpoint.getConnection_frame c.now
    refine iff_of_true ?_ trivial
    dsimp only
    rw [hframe]
    exact hcounted
  | pooled t conn =>
    obtain ⟨⟨hwaiting, hroom⟩, rfl⟩ := step_pooled hstep
    refine iff_of_true ?_ trivial
    dsimp only
    rw [gotConnection_active]
    cases conn with
    | false => exact hcounted
    | true =>
      -- there is a permit for it, so the counter does not wrap
      have hbound := maxConnections.toNat_lt
      have hcard := hroom rfl
      rw [if_pos rfl, if_pos rfl, Finset.card_insert_of_notMem (h.apart t hwaiting), UInt64.toNat_add,
        hcounted, UInt64.toNat_one]
      exact Nat.mod_eq_of_lt (by omega)
  | drop t =>
    obtain ⟨halive, rfl⟩ := step_drop hstep
    refine iff_of_false ?_ id
    dsimp only
    rw [hcounted]
    exact (Finset.card_erase_lt_of_mem halive).ne'
  | returnConnection success =>
    cases hstep
    refine iff_of_false ?_ id
    dsimp only
    rw [returnConnection_active, ← hcounted]
    exact toNat_sub_one_ne _
  | check result =>
    cases hstep
    obtain ⟨health, state, healthy, hframe⟩ := c.endpoint.performHealthCheck_frame result
    refine iff_of_true ?_ trivial
    dsimp only
    rw [hframe]
    exact hcounted

/-- **The count is right all along exactly the runs in which no connection is dropped** (and nobody calls
    `return_connection`). -/
theorem load_counted_iff (config : HealthCheckConfig) (maxConnections : UInt64) (now : Instant)
    (moves : List Move) (reached : System)
    (hrun : run (step maxConnections) (.start config now) moves = some reached) :
    (∀ before after c, moves = before ++ after →
        run (step maxConnections) (.start config now) before = some c → Counted c) ↔
      ∀ move ∈ moves, move.Keeps := by
  have hstart : Bounded maxConnections (.start config now) :=
    ⟨Nat.zero_le _, fun t ht => absurd ht (Finset.notMem_empty t)⟩
  have hcounted : Counted (.start config now) := rfl
  rw [← meets_label_iff hrun]
  exact (meets_iff_always (fun s a s' h hstep => h.step hstep)
    (fun s a s' h hs hstep => h.counted_iff hs hstep) hstart hcounted hrun).symm

/-- Two callers get their connections. -/
def acquisitions : List Move := [.getConnection 0, .getConnection 1, .pooled 1 true, .pooled 0 true]

/-- Both are counted. -/
theorem acquisitions_counted :
    (∃ c, run (step 10) (.start {} 0) acquisitions = some c ∧ c.alive = {0, 1}) ∧
    ∀ before after c, acquisitions = before ++ after →
      run (step 10) (.start {} 0) before = some c → Counted c :=
  ⟨⟨_, rfl, rfl⟩, (load_counted_iff {} 10 0 acquisitions _ rfl).mpr (by simp [acquisitions, Move.Keeps])⟩

/-- One of them drops its connection, and is still counted. -/
theorem dropped_still_counted : ∃ c, run (step 10) (.start {} 0) (acquisitions ++ [.drop 0]) = some c ∧
    c.endpoint.activeConnections = 2 ∧ c.alive = {1} ∧ ¬ Counted c :=
  ⟨_, rfl, rfl, rfl, show ¬ 2 = 1 by decide⟩

end Smppd.Cluster.Traffic
