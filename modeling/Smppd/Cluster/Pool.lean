/-
  The CONNECTION POOL of an endpoint (`src/cluster/pool.rs`).

  A semaphore bounds the connections in use, and a queue keeps the idle clients.  `get` takes a permit,
  then an idle client, or makes one if there is none; `warm` makes some in advance and puts them into the
  queue; a `PooledConnection` that is dropped gives its permit back.

  Three laws are meant to hold of every step (`Lawful`): the clients that are idle or in use are no more
  than `max_connections`; a client that is no longer in use is idle, for the next one; and a `get` makes a
  new client only while none is idle.  They do not hold of all:

  * a `PooledConnection` that is dropped takes its client with it, whatever the comment in its destructor
    says: nothing but `warm` puts a client into the queue;
  * `warm` takes no permits, so the clients it adds are not within the bound; and it may add one while a
    `get` that has found the queue empty is making another.

  `pool_lawful_iff`: there is nothing else.  The laws hold of every step of a run exactly if no client is
  dropped in it and `warm` adds one only while there is room, and no `get` is making one.
-/
import Smppd.Lib.Machine
import Smppd.Lib.Prog
import Smppd.Store.Types
import Mathlib.Data.Finset.Card
import Mathlib.Data.Finset.Image

set_option linter.unusedVariables false

namespace Smppd.Cluster.ConnectionPool

open Smppd.Store Prog Machine

/-! ## The methods -/

/-- Connection pool configuration. -/
structure PoolConfig where
  minConnections : UInt64 := 1
  maxConnections : UInt64 := 10

/-- A client that has connected, by a number of its own. -/
abbrev Client := Nat

/-- What a method does to the pool. -/
inductive Call where
  /-- `timeout(acquire_timeout, semaphore.acquire_owned())`: whether there is a permit in time.  Nobody
      closes the semaphore. -/
  | acquire
  /-- `idle.lock().await.pop_front()`. -/
  | popIdle
  /-- `idle.lock().await.push_back(client)`. -/
  | pushIdle (client : Client)
  /-- `Client::new(..).auth(..).connect().await`. -/
  | connect
  | addCreated
  | addInUse
  | subInUse
  /-- The client of a `PooledConnection` is dropped. -/
  | dropClient (client : Client)
  /-- A permit is dropped. -/
  | releasePermit
  deriving DecidableEq

/-- What each call answers. -/
abbrev Call.Res : Call → Type
  | .acquire => Bool
  | .popIdle => Option Client
  | .connect => Option Client
  | _ => Unit

abbrev Body (α : Type) := Prog Call Call.Res α

/-- A single call. -/
abbrev ask (call : Call) : Body call.Res := Prog.request call

/-- `create_connection`. -/
def createConnection : Body (Option Client) := do
  match ← ask .connect with
  | some client => do
    ask .addCreated
    pure (some client)
  | none => pure none

/-- `get`: the client of the `PooledConnection`, which has the permit too. -/
def get : Body (Option Client) := do
  match ← ask .acquire with
  | false => pure none
  | true => do
    let client ← match ← ask .popIdle with
      | some client => pure (some client)
      | none => createConnection
    match client with
    | some client => do
      ask .addInUse
      pure (some client)
    | none => do
      ask .releasePermit
      pure none

/-- `Drop for PooledConnection`, and then its fields. -/
def drop (client : Client) : Body Unit := do
  ask .subInUse
  ask (.dropClient client)
  ask .releasePermit

/-- The loop of `warm`. -/
def warmLoop : Nat → Body Unit
  | 0 => pure ()
  | left + 1 => do
    match ← createConnection with
    | some client => do
      ask (.pushIdle client)
      warmLoop left
    | none => pure ()

/-- `warm`. -/
def warm (config : PoolConfig) : Body Unit :=
  if config.minConnections = 0 then pure () else warmLoop config.minConnections.toNat

/-- A caller of `get`, who keeps the connection for a while. -/
def useConnection : Body Unit := do
  match ← get with
  | some client => drop client
  | none => pure ()

/-! ## The pool and its callers -/

/-- A task. -/
abbrev Tid := Nat

/-- The pool; and for the specification, the clients that are in use: a `get` has taken or made them, and
    nobody has dropped them. -/
structure Shared where
  idle : List Client := []
  /-- The number of the next client. -/
  next : Client := 0
  /-- Who has the permits that are out. -/
  permits : Finset Tid := ∅
  connectionsInUse : UInt64 := 0
  connectionsCreated : UInt64 := 0
  inUse : Finset Client := ∅

/-- What a call does, if what it waits for comes in time, or succeeds, or not.  A client that is made by a
    task with a permit is made by a `get`. -/
def perform : Handler Call Call.Res (Tid × Bool) Shared
  | (t, ok), .acquire, w => (ok, { w with permits := if ok then insert t w.permits else w.permits })
  | _, .popIdle, w =>
    match w.idle with
    | client :: rest => (some client, { w with idle := rest, inUse := insert client w.inUse })
    | [] => (none, w)
  | _, .pushIdle client, w => ((), { w with idle := w.idle ++ [client] })
  | (t, ok), .connect, w =>
    if ok then
      (some w.next, { w with
        next := w.next + 1
        inUse := if t ∈ w.permits then insert w.next w.inUse else w.inUse })
    else (none, w)
  | _, .addCreated, w => ((), { w with connectionsCreated := w.connectionsCreated + 1 })
  | _, .addInUse, w => ((), { w with connectionsInUse := w.connectionsInUse + 1 })
  | _, .subInUse, w => ((), { w with connectionsInUse := w.connectionsInUse - 1 })
  | _, .dropClient client, w => ((), { w with inUse := w.inUse.erase client })
  | (t, _), .releasePermit, w => ((), { w with permits := w.permits.erase t })

/-- The pool and what is left of what each task does. -/
abbrev System := Prog.Pool Call Call.Res Tid Shared

/-- What a task does with the pool. -/
inductive Operation where
  | useConnection
  | warm

/-- What can happen next. -/
inductive Move where
  | start (t : Tid) (operation : Operation)
  /-- A task goes on; what it waits for comes in time, or succeeds, or not. -/
  | call (t : Tid) (ok : Bool)

/-- A new pool. -/
def System.start : System := ⟨{}, fun _ => .ret ()⟩

section System

variable (config : PoolConfig)

def Operation.body : Operation → Body Unit
  | .useConnection => ConnectionPool.useConnection
  | .warm => ConnectionPool.warm config

/-- A permit can be had only while there is one. -/
def enabled (c : System) (t : Tid) (ok : Bool) : Bool :=
  match c.task t with
  | .call .acquire _ => !ok || decide (c.state.permits.card < config.maxConnections.toNat)
  | _ => true

/-- One step of the tasks. -/
def step (c : System) : Move → Option System
  | .start t operation =>
    if (c.task t).idle then some ⟨c.state, Function.update c.task t (operation.body config)⟩ else none
  | .call t ok => if enabled config c t ok then c.advance perform t (t, ok) else none

/-! ## The laws -/

/-- A `get` has found no idle client, and is making one. -/
def Connecting (c : System) (t : Tid) : Prop := t ∈ c.state.permits ∧ (c.task t).next = some .connect

/-- What is meant to hold of every step. -/
structure Lawful (c c' : System) : Prop where
  /-- No more clients than connections are allowed. -/
  bound : c'.state.idle.length + c'.state.inUse.card ≤ config.maxConnections.toNat
  /-- A client that is no longer in use is there for the next one. -/
  reuse : ∀ client ∈ c.state.inUse, client ∈ c'.state.inUse ∨ client ∈ c'.state.idle
  /-- No client is made while one is idle. -/
  demand : c'.state.idle ≠ [] → ∀ t, ¬ Connecting c' t

/-- The step drops no client, and adds one to the idle ones only while there is room and no `get` is making
    another. -/
def Careful (c : System) : Move → Prop
  | .start _ _ => True
  | .call t _ =>
    (∀ client, (c.task t).next ≠ some (.dropClient client)) ∧
    (∀ client, (c.task t).next = some (.pushIdle client) →
      c.state.idle.length + c.state.inUse.card < config.maxConnections.toNat ∧ ∀ t', ¬ Connecting c t')

end System

/-! ## Where each task is -/

/-- Where a task is. -/
inductive Stage where
  /-- It has neither a permit nor a client. -/
  | free
  /-- A `get` that has a permit. -/
  | permitted
  /-- A `get` that has found no idle client. -/
  | connecting
  /-- It has a permit and a client. -/
  | serving (client : Client)
  /-- It has a permit, and no client any more, or none after all. -/
  | leaving
  /-- A `warm` that has made a client. -/
  | warmed (client : Client)

/-- The client a task has. -/
def Stage.client : Stage → Option Client
  | .serving client => some client
  | .warmed client => some client
  | _ => none

/-- The task has a permit. -/
def Stage.Permitted : Stage → Prop
  | .free => False
  | .warmed _ => False
  | _ => True

/-- What each call needs, and where it leads. -/
def calls : Spec Call Call.Res Stage
  | .acquire, post, g => g = .free ∧ post true .permitted ∧ post false .free
  | .popIdle, post, g =>
    g = .permitted ∧ (∀ client, post (some client) (.serving client)) ∧ post none .connecting
  | .pushIdle client, post, g => g = .warmed client ∧ post () .free
  | .connect, post, g =>
    (g = .connecting ∧ (∀ client, post (some client) (.serving client)) ∧ post none .leaving) ∨
      (g = .free ∧ (∀ client, post (some client) (.warmed client)) ∧ post none .free)
  | .addCreated, post, g => g.client ≠ none ∧ post () g
  | .addInUse, post, g => g.client ≠ none ∧ post () g
  | .subInUse, post, g => g.client ≠ none ∧ post () g
  | .dropClient client, post, g => g = .serving client ∧ post () .leaving
  | .releasePermit, post, g => g = .leaving ∧ post () .free

/-- **Every body goes through its stages.** -/
theorem wp_drop (client : Client) : (drop client).wp calls (fun _ g => g = .free) (.serving client) :=
  ⟨nofun, rfl, rfl, rfl⟩

theorem wp_useConnection : useConnection.wp calls (fun _ g => g = .free) .free := by
  refine ⟨rfl, ⟨rfl, fun client => ?_, ?_⟩, rfl⟩
  · exact ⟨nofun, wp_drop client⟩
  · exact Or.inl ⟨rfl, fun client => ⟨nofun, nofun, wp_drop client⟩, rfl, rfl⟩

theorem wp_warmLoop (left : Nat) : (warmLoop left).wp calls (fun _ g => g = .free) .free := by
  induction left with
  | zero => rfl
  | succ left ih => exact Or.inr ⟨rfl, fun client => ⟨nofun, rfl, ih⟩, rfl⟩

theorem wp_body (config : PoolConfig) (operation : Operation) :
    (operation.body config).wp calls (fun _ g => g = .free) .free := by
  cases operation with
  | useConnection => exact wp_useConnection
  | warm =>
    show (if config.minConnections = 0 then pure () else warmLoop config.minConnections.toNat).wp calls _ _
    split
    · rfl
    · exact wp_warmLoop _

/-! ## What holds in every interleaving -/

/-- What a task has is what the pool has given it; and the last law holds of it. -/
structure Fits (w : Shared) (t : Tid) (g : Stage) : Prop where
  permitted : t ∈ w.permits ↔ g.Permitted
  uses : ∀ client, g = .serving client → client ∈ w.inUse
  hand : ∀ client, g.client = some client → client < w.next ∧ client ∉ w.idle
  demand : w.idle ≠ [] → g ≠ .connecting

/-- Every task fits, every client has one owner, and the first law holds. -/
structure Guarded (config : PoolConfig) (w : Shared) (γ : Tid → Stage) : Prop where
  fits : ∀ t, Fits w t (γ t)
  permits : w.permits.card ≤ config.maxConnections.toNat
  used : ∀ client ∈ w.inUse, ∃ t, γ t = .serving client
  single : ∀ t t' client, (γ t).client = some client → (γ t').client = some client → t = t'
  queue : w.idle.Nodup ∧ ∀ client ∈ w.idle, client < w.next
  bound : w.idle.length + w.inUse.card ≤ config.maxConnections.toNat

variable {config : PoolConfig} {w w' : Shared} {γ : Tid → Stage} {t : Tid} {g : Stage} {client : Client}

/-- A task without a client uses none. -/
theorem not_serving_of_client (h : g.client = none) (client : Client) : g ≠ .serving client := by
  rintro rfl
  cases h

/-- A task whose stage has no permit has none. -/
theorem Guarded.notMem_permits (h : Guarded config w γ) (ht : ¬ (γ t).Permitted) : t ∉ w.permits :=
  mt (h.fits t).permitted.mp ht

/-- A task that uses a client has a permit for it. -/
theorem Guarded.card_lt (h : Guarded config w γ) (ht : (γ t).Permitted) (hnone : (γ t).client = none) :
    w.inUse.card < config.maxConnections.toNat := by
  -- every client in use is with another of the tasks that have a permit
  have hcover : w.inUse ⊆ (w.permits.erase t).image fun t' => (γ t').client.getD 0 := by
    intro client hclient
    obtain ⟨t', ht'⟩ := h.used client hclient
    refine Finset.mem_image.mpr ⟨t', Finset.mem_erase.mpr ⟨?_, (h.fits t').permitted.mpr ?_⟩, ?_⟩
    · rintro rfl
      rw [ht'] at hnone
      cases hnone
    · rw [ht']
      trivial
    · rw [ht']
      rfl
  calc w.inUse.card ≤ ((w.permits.erase t).image fun t' => (γ t').client.getD 0).card :=
        Finset.card_le_card hcover
    _ ≤ (w.permits.erase t).card := Finset.card_image_le
    _ < w.permits.card := Finset.card_erase_lt_of_mem ((h.fits t).permitted.mpr ht)
    _ ≤ config.maxConnections.toNat := h.permits

/-- The task that moves takes no client of another's. -/
theorem Guarded.single_update (h : Guarded config w γ)
    (hg : ∀ client, g.client = some client → ∀ t', t' ≠ t → (γ t').client ≠ some client)
    (t₁ t₂ : Tid) (client : Client) (h₁ : (Function.update γ t g t₁).client = some client)
    (h₂ : (Function.update γ t g t₂).client = some client) : t₁ = t₂ :=
  unique_update (P := fun stage : Stage => stage.client = some client) (fun t t' => h.single t t' client)
    (hg client) t₁ t₂ h₁ h₂

/-- Whoever uses a client goes on using it, if it is not the task that moves. -/
theorem Guarded.used_update (h : Guarded config w γ) (ht : ∀ client, γ t ≠ .serving client)
    (hclient : client ∈ w.inUse) : ∃ t', Function.update γ t g t' = .serving client := by
  obtain ⟨t', ht'⟩ := h.used client hclient
  refine ⟨t', ?_⟩
  rw [Function.update_of_ne, ht']
  rintro rfl
  exact ht client ht'

/-- **A task that has no client moves on without one**; nothing but the permits changes. -/
theorem Guarded.turn (h : Guarded config w γ) (ht : (γ t).client = none) (hg : g.client = none)
    {permits : Finset Tid} (hself : t ∈ permits ↔ g.Permitted)
    (hothers : ∀ t', t' ≠ t → (t' ∈ permits ↔ t' ∈ w.permits))
    (hpermits : permits.card ≤ config.maxConnections.toNat) (hconnecting : g = .connecting → w.idle = []) :
    Guarded config { w with permits := permits } (Function.update γ t g) := by
  have hnone : ∀ client, g.client ≠ some client := fun client heq => nomatch hg.symm.trans heq
  have hfits : Fits { w with permits := permits } t g :=
    ⟨hself, fun client heq => absurd (congrArg Stage.client heq) (hnone client),
      fun client heq => absurd heq (hnone client), fun hidle heq => hidle (hconnecting heq)⟩
  refine ⟨(Function.forall_update_iff γ (Fits _)).mpr ⟨hfits, fun t' hne => ?_⟩, hpermits,
    fun client hclient => ?_, h.single_update fun client heq => absurd heq (hnone client), h.queue, h.bound⟩
  · have hfit := h.fits t'
    exact ⟨(hothers t' hne).trans hfit.permitted, hfit.uses, hfit.hand, hfit.demand⟩
  · exact h.used_update (not_serving_of_client ht) hclient

/-- Nothing but the counters changes, and the task keeps what it has. -/
theorem Guarded.counters (h : Guarded config w γ) (connectionsInUse connectionsCreated : UInt64) (t : Tid) :
    Guarded config
      { w with connectionsInUse := connectionsInUse, connectionsCreated := connectionsCreated }
      (Function.update γ t (γ t)) := by
  rw [Function.update_eq_self]
  refine ⟨fun t' => ?_, h.permits, h.used, h.single, h.queue, h.bound⟩
  have hfit := h.fits t'
  exact ⟨hfit.permitted, hfit.uses, hfit.hand, hfit.demand⟩

/-- **A task is given a client, in use from now on**: an idle one, or a new one. -/
theorem Guarded.gain (h : Guarded config w γ) (ht : (γ t).Permitted) (hnone : (γ t).client = none)
    {idle : List Client} {next : Client} (hidle : ∀ c ∈ idle, c ∈ w.idle) (hqueue : idle.Nodup)
    (hnext : w.next ≤ next) (hclient : client < next) (hnotIdle : client ∉ idle)
    (hfree : ∀ t', (γ t').client ≠ some client)
    (hbound : idle.length + (insert client w.inUse).card ≤ config.maxConnections.toNat) :
    Guarded config { w with idle := idle, next := next, inUse := insert client w.inUse }
      (Function.update γ t (.serving client)) := by
  have hfits : Fits { w with idle := idle, next := next, inUse := insert client w.inUse } t (.serving client) := by
    refine ⟨iff_of_true ((h.fits t).permitted.mpr ht) trivial, fun c heq => ?_, fun c heq => ?_, nofun⟩
    · cases heq
      exact Finset.mem_insert_self _ _
    · cases heq
      exact ⟨hclient, hnotIdle⟩
  refine ⟨(Function.forall_update_iff γ (Fits _)).mpr ⟨hfits, fun t' _ => ?_⟩, h.permits, fun c hc => ?_,
    h.single_update fun c heq t' _ => ?_, ⟨hqueue, fun c hc => ?_⟩, hbound⟩
  · have hfit := h.fits t'
    refine ⟨hfit.permitted, fun c heq => Finset.mem_insert_of_mem (hfit.uses c heq), fun c heq => ?_,
      fun hne heq => hfit.demand (fun hempty => hne ?_) heq⟩
    · obtain ⟨hlt, hnot⟩ := hfit.hand c heq
      exact ⟨Nat.lt_of_lt_of_le hlt hnext, fun hmem => hnot (hidle c hmem)⟩
    · refine List.eq_nil_iff_forall_not_mem.mpr fun c hc => ?_
      rw [hempty] at hidle
      exact absurd (hidle c hc) List.not_mem_nil
  · rcases Finset.mem_insert.mp hc with rfl | hmem
    · exact ⟨t, Function.update_self t _ γ⟩
    · exact h.used_update (not_serving_of_client hnone) hmem
  · cases heq
    exact hfree t'
  · exact Nat.lt_of_lt_of_le (h.queue.2 c (hidle c hc)) hnext

/-- A client that nobody has had yet is nobody's. -/
theorem Guarded.next_free (h : Guarded config w γ) (t : Tid) : (γ t).client ≠ some w.next :=
  fun heq => Nat.lt_irrefl _ ((h.fits t).hand _ heq).1

theorem Guarded.next_notMem (h : Guarded config w γ) : w.next ∉ w.inUse := by
  intro hmem
  obtain ⟨t, ht⟩ := h.used _ hmem
  exact h.next_free t (congrArg Stage.client ht)

/-- **A `warm` has made a client.** -/
theorem Guarded.warmed (h : Guarded config w γ) (ht : γ t = .free) :
    Guarded config { w with next := w.next + 1 } (Function.update γ t (.warmed w.next)) := by
  have hnotPermitted : t ∉ w.permits := h.notMem_permits (by rw [ht]; exact id)
  have hnone : (γ t).client = none := congrArg Stage.client ht
  have hfits : Fits { w with next := w.next + 1 } t (.warmed w.next) := by
    refine ⟨iff_of_false hnotPermitted id, nofun, fun c heq => ?_, nofun⟩
    cases heq
    exact ⟨Nat.lt_succ_self _, fun hmem => Nat.lt_irrefl _ (h.queue.2 _ hmem)⟩
  refine ⟨(Function.forall_update_iff γ (Fits _)).mpr ⟨hfits, fun t' _ => ?_⟩, h.permits,
    fun c hc => h.used_update (not_serving_of_client hnone) hc, h.single_update fun c heq t' _ => ?_,
    ⟨h.queue.1, fun c hc => ?_⟩, h.bound⟩
  · have hfit := h.fits t'
    refine ⟨hfit.permitted, hfit.uses, fun c heq => ?_, hfit.demand⟩
    exact ⟨Nat.lt_succ_of_lt (hfit.hand c heq).1, (hfit.hand c heq).2⟩
  · cases heq
    exact h.next_free t'
  · exact Nat.lt_succ_of_lt (h.queue.2 c hc)

/-- **A `warm` adds its client**, while there is room and no `get` is making one. -/
theorem Guarded.pushIdle (h : Guarded config w γ) (ht : γ t = .warmed client)
    (hroom : w.idle.length + w.inUse.card < config.maxConnections.toNat) (hnobody : ∀ t', γ t' ≠ .connecting) :
    Guarded config { w with idle := w.idle ++ [client] } (Function.update γ t .free) := by
  have hclient : (γ t).client = some client := congrArg Stage.client ht
  have hnotPermitted : t ∉ w.permits := h.notMem_permits (by rw [ht]; exact id)
  have hfits : Fits { w with idle := w.idle ++ [client] } t .free :=
    ⟨iff_of_false hnotPermitted id, nofun, nofun, nofun⟩
  have hnotUsing : ∀ c, γ t ≠ .serving c := fun c heq => nomatch ht.symm.trans heq
  obtain ⟨hlt, hnotIdle⟩ := (h.fits t).hand client hclient
  refine ⟨(Function.forall_update_iff γ (Fits _)).mpr ⟨hfits, fun t' hne => ?_⟩, h.permits,
    fun c hc => h.used_update hnotUsing hc, h.single_update nofun, ⟨?_, fun c hc => ?_⟩, ?_⟩
  · have hfit := h.fits t'
    refine ⟨hfit.permitted, hfit.uses, fun c heq => ⟨(hfit.hand c heq).1, fun hmem => ?_⟩,
      fun _ => hnobody t'⟩
    rcases List.mem_append.mp hmem with hold | hnew
    · exact (hfit.hand c heq).2 hold
    · -- the client is no other task's
      obtain rfl := List.mem_singleton.mp hnew
      exact hne (h.single t' t c heq hclient)
  · exact List.Nodup.append h.queue.1 (List.nodup_singleton client)
      (List.disjoint_singleton.mpr hnotIdle)
  · rcases List.mem_append.mp hc with hold | hnew
    · exact h.queue.2 c hold
    · obtain rfl := List.mem_singleton.mp hnew
      exact hlt
  · show (w.idle ++ [client]).length + w.inUse.card ≤ _
    rw [List.length_append, List.length_singleton]
    omega

/-- **A task is given a permit.** -/
theorem Guarded.acquired (h : Guarded config w γ) (ht : γ t = .free)
    (hgranted : w.permits.card < config.maxConnections.toNat) (hg : g.client = none) (hpermitted : g.Permitted)
    (hconnecting : g ≠ .connecting) :
    Guarded config { w with permits := insert t w.permits } (Function.update γ t g) := by
  have hnone : (γ t).client = none := congrArg Stage.client ht
  have hnot : t ∉ w.permits := h.notMem_permits (by rw [ht]; exact id)
  refine h.turn hnone hg ?_ (fun t' hne => ?_) ?_ fun heq => absurd heq hconnecting
  · exact iff_of_true (Finset.mem_insert_self t _) hpermitted
  · rw [Finset.mem_insert]
    exact or_iff_right hne
  · rw [Finset.card_insert_of_notMem hnot]
    exact hgranted

/-- **A task takes the client at the head of the queue.** -/
theorem Guarded.popped (h : Guarded config w γ) (ht : (γ t).Permitted) (hnone : (γ t).client = none)
    {rest : List Client} (hidle : w.idle = client :: rest) :
    Guarded config { w with idle := rest, inUse := insert client w.inUse }
      (Function.update γ t (.serving client)) := by
  have hmem : client ∈ w.idle := hidle ▸ List.mem_cons_self
  have hnodup := h.queue.1
  rw [hidle, List.nodup_cons] at hnodup
  have hfree : ∀ t', (γ t').client ≠ some client := fun t' heq => ((h.fits t').hand client heq).2 hmem
  have hnot : client ∉ w.inUse := fun hused => by
    obtain ⟨t', ht'⟩ := h.used client hused
    exact hfree t' (congrArg Stage.client ht')
  refine h.gain ht hnone (fun c hc => ?_) hnodup.2 (Nat.le_refl _) (h.queue.2 client hmem) hnodup.1 hfree ?_
  · rw [hidle]
    exact List.mem_cons_of_mem client hc
  · have hbound := h.bound
    rw [hidle, List.length_cons] at hbound
    rw [Finset.card_insert_of_notMem hnot]
    omega

/-- **A task makes a client**, with none in the queue. -/
theorem Guarded.connected (h : Guarded config w γ) (ht : (γ t).Permitted) (hnone : (γ t).client = none)
    (hempty : w.idle = []) :
    Guarded config { w with next := w.next + 1, inUse := insert w.next w.inUse }
      (Function.update γ t (.serving w.next)) := by
  refine h.gain ht hnone (fun c hc => hc) h.queue.1 (Nat.le_succ _) (Nat.lt_succ_self _)
    (fun hold => Nat.lt_irrefl _ (h.queue.2 _ hold)) h.next_free ?_
  have hlt := h.card_lt ht hnone
  rw [Finset.card_insert_of_notMem h.next_notMem, hempty, List.length_nil]
  omega

/-- **A task gives its permit back.** -/
theorem Guarded.released (h : Guarded config w γ) (ht : (γ t).client = none) :
    Guarded config { w with permits := w.permits.erase t } (Function.update γ t .free) := by
  refine h.turn ht rfl ?_ (fun t' hne => ?_) ?_ nofun
  · exact iff_of_false (Finset.notMem_erase t _) id
  · rw [Finset.mem_erase]
    exact and_iff_right hne
  · exact Nat.le_trans (Finset.card_le_card (Finset.erase_subset t _)) h.permits

/-! ## Every call -/

theorem perform_popIdle_nil (ok : Bool) (h : w.idle = []) : perform (t, ok) .popIdle w = (none, w) := by
  simp only [perform, h]

theorem perform_popIdle_cons (ok : Bool) {rest : List Client} (h : w.idle = client :: rest) :
    perform (t, ok) .popIdle w =
      (some client, { w with idle := rest, inUse := insert client w.inUse }) := by
  simp only [perform, h]

/-- A client that a `get` makes is in use. -/
theorem perform_connect_get (h : t ∈ w.permits) : perform (t, true) .connect w =
    (some w.next, { w with next := w.next + 1, inUse := insert w.next w.inUse }) := by
  simp only [perform, if_pos h, if_true]

/-- One that a `warm` makes is not. -/
theorem perform_connect_warm (h : t ∉ w.permits) :
    perform (t, true) .connect w = (some w.next, { w with next := w.next + 1 }) := by
  simp only [perform, if_neg h, if_true]

/-- The call drops no client, and adds one only while there is room and no `get` is making one. -/
def RoomFor (config : PoolConfig) (w : Shared) (γ : Tid → Stage) : Call → Prop
  | .dropClient _ => False
  | .pushIdle _ =>
    w.idle.length + w.inUse.card < config.maxConnections.toNat ∧ ∀ t, γ t ≠ .connecting
  | _ => True

/-- There is a permit, if the call is for one. -/
def Granted (config : PoolConfig) (w : Shared) (ok : Bool) : Call → Prop
  | .acquire => ok = true → w.permits.card < config.maxConnections.toNat
  | _ => True

/-- **Every call keeps the invariant**, if it is careful. -/
theorem Guarded.perform (h : Guarded config w γ) {call : Call} {ok : Bool} {post : call.Res → Stage → Prop}
    (hcall : calls call post (γ t)) (hgranted : Granted config w ok call) (hroom : RoomFor config w γ call) :
    ∃ g, post (perform (t, ok) call w).1 g ∧
      Guarded config (perform (t, ok) call w).2 (Function.update γ t g) := by
  have hfit := h.fits t
  cases call with
  | acquire =>
    obtain ⟨ht, hyes, hno⟩ := hcall
    cases ok with
    | true => exact ⟨_, hyes, h.acquired ht (hgranted rfl) rfl trivial nofun⟩
    | false =>
      have hnone : (γ t).client = none := congrArg Stage.client ht
      have hnot : t ∉ w.permits := h.notMem_permits (by rw [ht]; exact id)
      exact ⟨_, hno, h.turn hnone rfl (iff_of_false hnot id) (fun _ _ => Iff.rfl) h.permits nofun⟩
  | popIdle =>
    obtain ⟨ht, hsome, hnone⟩ := hcall
    have hclient : (γ t).client = none := congrArg Stage.client ht
    have hpermitted : (γ t).Permitted := by
      rw [ht]
      trivial
    cases hidle : w.idle with
    | nil =>
      rw [perform_popIdle_nil ok hidle]
      refine ⟨_, hnone, h.turn hclient rfl ?_ (fun _ _ => Iff.rfl) h.permits fun _ => hidle⟩
      exact iff_of_true (hfit.permitted.mpr hpermitted) trivial
    | cons client rest =>
      rw [perform_popIdle_cons ok hidle]
      exact ⟨_, hsome client, h.popped hpermitted hclient hidle⟩
  | connect =>
    rcases hcall with ⟨ht, hsome, hnone⟩ | ⟨ht, hsome, hnone⟩
    · have hclient : (γ t).client = none := congrArg Stage.client ht
      have hpermitted : (γ t).Permitted := by
        rw [ht]
        trivial
      have hmem : t ∈ w.permits := hfit.permitted.mpr hpermitted
      have hempty : w.idle = [] := by
        by_contra hne
        exact hfit.demand hne ht
      cases ok with
      | true =>
        rw [perform_connect_get hmem]
        exact ⟨_, hsome w.next, h.connected hpermitted hclient hempty⟩
      | false =>
        exact ⟨_, hnone, h.turn hclient rfl (iff_of_true hmem trivial) (fun _ _ => Iff.rfl) h.permits nofun⟩
    · have hnot : t ∉ w.permits := h.notMem_permits (by rw [ht]; exact id)
      cases ok with
      | true =>
        rw [perform_connect_warm hnot]
        exact ⟨_, hsome w.next, h.warmed ht⟩
      | false =>
        exact ⟨_, hnone, h.turn (congrArg Stage.client ht) rfl (iff_of_false hnot id) (fun _ _ => Iff.rfl)
          h.permits nofun⟩
  | pushIdle client =>
    obtain ⟨ht, hpost⟩ := hcall
    exact ⟨_, hpost, h.pushIdle ht hroom.1 hroom.2⟩
  | dropClient client => exact hroom.elim
  | releasePermit =>
    obtain ⟨ht, hpost⟩ := hcall
    exact ⟨_, hpost, h.released (congrArg Stage.client ht)⟩
  | addCreated => exact ⟨_, hcall.2, h.counters _ _ t⟩
  | addInUse => exact ⟨_, hcall.2, h.counters _ _ t⟩
  | subInUse => exact ⟨_, hcall.2, h.counters _ _ t⟩

/-- A client in use stays in use, if it is not dropped. -/
theorem mem_inUse_perform {call : Call} {ok : Bool} (hcall : ∀ c, call ≠ .dropClient c)
    (h : client ∈ w.inUse) : client ∈ (perform (t, ok) call w).2.inUse := by
  cases call with
  | dropClient c => exact absurd rfl (hcall c)
  | popIdle =>
    cases hidle : w.idle with
    | nil =>
      rw [perform_popIdle_nil ok hidle]
      exact h
    | cons c rest =>
      rw [perform_popIdle_cons ok hidle]
      exact Finset.mem_insert_of_mem h
  | connect =>
    cases ok with
    | false => exact h
    | true =>
      by_cases hmem : t ∈ w.permits
      · rw [perform_connect_get hmem]
        exact Finset.mem_insert_of_mem h
      · rw [perform_connect_warm hmem]
        exact h
  | _ => exact h

/-! ## Runs -/

variable {c c' : System}

/-- Every task keeps its specification from where it is. -/
abbrev KeptAt (config : PoolConfig) (c : System) (γ : Tid → Stage) : Prop :=
  Pledged (fun _ => calls) (fun _ g => g = .free) (Guarded config) c γ

/-- Every task keeps its specification, and the invariant holds. -/
def Kept (config : PoolConfig) (c : System) : Prop := ∃ γ, KeptAt config c γ

theorem kept_start (config : PoolConfig) : Kept config .start := by
  refine ⟨fun _ => .free,
    ⟨fun t => ?_, Nat.zero_le _, nofun, nofun, ⟨List.nodup_nil, nofun⟩, Nat.zero_le _⟩, fun _ => rfl⟩
  exact ⟨iff_of_false (Finset.notMem_empty t) id, nofun, nofun, nofun⟩

/-- **A `get` that is making a client is one that is at that stage.** -/
theorem connecting_iff (h : KeptAt config c γ) : Connecting c t ↔ γ t = .connecting := by
  have hfit := h.inv.fits t
  have hwp := h.each t
  constructor
  · rintro ⟨hmem, hnext⟩
    cases htask : c.task t with
    | ret a =>
      rw [htask] at hnext
      cases hnext
    | call call k =>
      rw [htask] at hnext hwp
      obtain rfl : call = .connect := Option.some.inj hnext
      rcases hwp with ⟨hg, -, -⟩ | ⟨hg, -, -⟩
      · exact hg
      · rw [hfit.permitted, hg] at hmem
        exact hmem.elim
  · intro hg
    have hmem : t ∈ c.state.permits := by
      rw [hfit.permitted, hg]
      trivial
    refine ⟨hmem, ?_⟩
    cases htask : c.task t with
    | ret a =>
      rw [htask] at hwp
      exact nomatch hg.symm.trans hwp
    | call call k =>
      rw [htask] at hwp
      cases call with
      | connect => rfl
      | acquire => exact nomatch hg.symm.trans hwp.1
      | popIdle => exact nomatch hg.symm.trans hwp.1
      | pushIdle client => exact nomatch hg.symm.trans hwp.1
      | dropClient client => exact nomatch hg.symm.trans hwp.1
      | releasePermit => exact nomatch hg.symm.trans hwp.1
      | addCreated => exact absurd (congrArg Stage.client hg) hwp.1
      | addInUse => exact absurd (congrArg Stage.client hg) hwp.1
      | subInUse => exact absurd (congrArg Stage.client hg) hwp.1

/-- Between calls, the first and the last law hold. -/
theorem KeptAt.bound_and_demand (h : KeptAt config c γ) :
    c.state.idle.length + c.state.inUse.card ≤ config.maxConnections.toNat ∧
      (c.state.idle ≠ [] → ∀ t, ¬ Connecting c t) :=
  ⟨h.inv.bound, fun hidle t hconnecting =>
    (h.inv.fits t).demand hidle ((connecting_iff h).mp hconnecting)⟩

/-- What a step of a task has made, was granted. -/
theorem step_call_eq_some {ok : Bool} (h : step config c (.call t ok) = some c') :
    ∃ call k, c.task t = .call call k ∧ Granted config c.state ok call ∧
      c.advance perform t (t, ok) = some c' ∧
      c' = ⟨(perform (t, ok) call c.state).2,
        Function.update c.task t (k (perform (t, ok) call c.state).1)⟩ := by
  obtain ⟨henabled, hadvance⟩ := Option.ite_none_right_eq_some.mp h
  obtain ⟨call, k, htask, rfl⟩ := Pool.advance_eq_some.mp hadvance
  refine ⟨call, k, htask, ?_, hadvance, rfl⟩
  unfold enabled at henabled
  rw [htask] at henabled
  cases call with
  | acquire =>
    intro hok
    subst hok
    simpa using henabled
  | _ => trivial

/-- A task is careful when its call is. -/
theorem careful_iff (h : KeptAt config c γ) {call : Call} {k : call.Res → Body Unit} {ok : Bool}
    (htask : c.task t = .call call k) :
    Careful config c (.call t ok) ↔ RoomFor config c.state γ call := by
  have hnobody : (∀ t', ¬ Connecting c t') ↔ ∀ t', γ t' ≠ .connecting :=
    forall_congr' fun t' => not_congr (connecting_iff h)
  show (_ ∧ _) ↔ _
  rw [htask]
  cases call with
  | dropClient client => exact iff_of_false (fun hand => hand.1 client rfl) id
  | pushIdle client =>
    refine ⟨fun hand => ?_, fun hroom => ⟨nofun, fun client' heq => ?_⟩⟩
    · obtain ⟨hlt, hnone⟩ := hand.2 client rfl
      exact ⟨hlt, hnobody.mp hnone⟩
    · exact ⟨hroom.1, hnobody.mpr hroom.2⟩
  | _ => exact iff_of_true ⟨nofun, nofun⟩ trivial

/-- **The step lemma.** -/
theorem Kept.step (h : Kept config c) {move : Move} (hcareful : Careful config c move)
    (hstep : ConnectionPool.step config c move = some c') : Kept config c' := by
  obtain ⟨γ, hkept⟩ := h
  cases move with
  | start t operation =>
    obtain ⟨hidle, heq⟩ := Option.ite_none_right_eq_some.mp hstep
    cases heq
    have hfree : γ t = .free := hkept.done_of_idle hidle
    have hinv : Guarded config c.state (Function.update γ t .free) := by
      rw [← hfree, Function.update_eq_self]
      exact hkept.inv
    exact ⟨_, hkept.set t hinv (wp_body config operation)⟩
  | call t ok =>
    obtain ⟨call, k, htask, hgranted, hadvance, -⟩ := step_call_eq_some hstep
    have hroom := (careful_iff hkept htask).mp hcareful
    obtain ⟨g, hnext⟩ := hkept.advance hadvance fun call' k' htask' post hcall => by
      cases htask.symm.trans htask'
      exact hkept.inv.perform hcall hgranted hroom
    exact ⟨_, hnext⟩

/-- **A step keeps the laws exactly when it is careful.** -/
theorem Kept.lawful_iff (h : Kept config c) {move : Move}
    (hstep : ConnectionPool.step config c move = some c') :
    Lawful config c c' ↔ Careful config c move := by
  obtain ⟨γ, hkept⟩ := h
  cases move with
  | start t operation =>
    have hcareful : Careful config c (.start t operation) := trivial
    obtain ⟨γ', hkept'⟩ := Kept.step ⟨γ, hkept⟩ hcareful hstep
    obtain ⟨-, heq⟩ := Option.ite_none_right_eq_some.mp hstep
    cases heq
    obtain ⟨hbound, hdemand⟩ := hkept'.bound_and_demand
    exact iff_of_true ⟨hbound, fun client hclient => Or.inl hclient, hdemand⟩ hcareful
  | call t ok =>
    obtain ⟨call, k, htask, hgranted, hadvance, heq⟩ := step_call_eq_some hstep
    have hwp := hkept.each t
    rw [htask] at hwp
    by_cases hcareful : Careful config c (.call t ok)
    · obtain ⟨γ', hkept'⟩ := Kept.step ⟨γ, hkept⟩ hcareful hstep
      obtain ⟨hbound, hdemand⟩ := hkept'.bound_and_demand
      refine iff_of_true ⟨hbound, fun client hclient => Or.inl ?_, hdemand⟩ hcareful
      rw [heq]
      refine mem_inUse_perform (fun c' hdrop => ?_) hclient
      subst hdrop
      exact hcareful.1 c' (congrArg Prog.next htask)
    · refine iff_of_false (fun hlawful => hcareful ?_) hcareful
      rw [careful_iff hkept htask]
      subst heq
      cases call with
      | dropClient client =>
        -- the client is not in use any more, and not idle
        have hserving : γ t = .serving client := hwp.1
        have hnotIdle := ((hkept.inv.fits t).hand client (congrArg Stage.client hserving)).2
        rcases hlawful.reuse client ((hkept.inv.fits t).uses client hserving) with hmem | hmem
        · exact absurd hmem (Finset.notMem_erase client _)
        · exact absurd hmem hnotIdle
      | pushIdle client =>
        have hwarmed : γ t = .warmed client := hwp.1
        have hbound := hlawful.bound
        refine ⟨?_, fun t' hconnecting => ?_⟩
        · change (c.state.idle ++ [client]).length + c.state.inUse.card ≤ _ at hbound
          rw [List.length_append, List.length_singleton] at hbound
          omega
        · -- a `get` that is making a client still is
          have hne : t' ≠ t := by
            rintro rfl
            exact nomatch hwarmed.symm.trans hconnecting
          obtain ⟨hmem, hnext⟩ := (connecting_iff hkept).mpr hconnecting
          refine hlawful.demand (List.append_ne_nil_of_right_ne_nil _ (List.cons_ne_nil _ _)) t' ⟨hmem, ?_⟩
          show (Function.update c.task t _ t').next = _
          rw [Function.update_of_ne hne]
          exact hnext
      | _ => trivial

/-- **The laws hold of every step exactly in the careful runs**: whatever tasks use or warm the pool in
    whatever interleaving, and whichever attempts to connect succeed. -/
theorem pool_lawful_iff (config : PoolConfig) (moves : List Move) (reached : System)
    (hrun : run (step config) .start moves = some reached) :
    Steps (step config) (Lawful config) .start moves ↔ Meets (step config) (Careful config) .start moves :=
  steps_iff_meets (fun _ _ _ h hok hstep => Kept.step h hok hstep)
    (fun _ _ _ h hstep => Kept.lawful_iff h hstep) (kept_start config) hrun

/-! ## Deciding -/

instance (c : System) (t : Tid) : Decidable (Connecting c t) := inferInstanceAs (Decidable (_ ∧ _))

/-- Only the tasks with a permit have to be looked at. -/
instance decidableNobodyConnecting (c : System) : Decidable (∀ t, ¬ Connecting c t) :=
  decidable_of_iff (∀ t ∈ c.state.permits, ¬ Connecting c t)
    ⟨fun hall t hconnecting => hall t hconnecting.1 hconnecting, fun hnobody t _ => hnobody t⟩

instance (config : PoolConfig) (c c' : System) : Decidable (Lawful config c c') :=
  decidable_of_iff
    (c'.state.idle.length + c'.state.inUse.card ≤ config.maxConnections.toNat ∧
      (∀ client ∈ c.state.inUse, client ∈ c'.state.inUse ∨ client ∈ c'.state.idle) ∧
      (c'.state.idle ≠ [] → ∀ t, ¬ Connecting c' t))
    ⟨fun h => ⟨h.1, h.2.1, h.2.2⟩, fun h => ⟨h.bound, h.reuse, h.demand⟩⟩

/-- Whether the next call, if there is one, is careful. -/
instance decidableCareful {Room : Prop} [Decidable Room] : (next : Option Call) →
    Decidable ((∀ client, next ≠ some (.dropClient client)) ∧
      (∀ client, next = some (.pushIdle client) → Room))
  | some (.dropClient client) => isFalse fun hand => hand.1 client rfl
  | some (.pushIdle client) => decidable_of_iff Room
      ⟨fun hroom => ⟨nofun, fun _ _ => hroom⟩, fun hand => hand.2 client rfl⟩
  | none => isTrue ⟨nofun, nofun⟩
  | some .acquire => isTrue ⟨nofun, nofun⟩
  | some .popIdle => isTrue ⟨nofun, nofun⟩
  | some .connect => isTrue ⟨nofun, nofun⟩
  | some .addCreated => isTrue ⟨nofun, nofun⟩
  | some .addInUse => isTrue ⟨nofun, nofun⟩
  | some .subInUse => isTrue ⟨nofun, nofun⟩
  | some .releasePermit => isTrue ⟨nofun, nofun⟩

instance (config : PoolConfig) (c : System) : (move : Move) → Decidable (Careful config c move)
  | .start _ _ => isTrue trivial
  | .call t _ => decidableCareful (c.task t).next

/-- A task starts, and makes so many calls that all succeed. -/
def doing (t : Tid) (operation : Operation) (calls : Nat) : List Move :=
  .start t operation :: List.replicate calls (.call t true)

/-- The pool is warmed, and two connections are taken: the one that is idle, and a new one. -/
def warmAndTake : List Move := doing 0 .warm 3 ++ doing 1 .useConnection 3 ++ doing 2 .useConnection 5

/-- That is careful, and lawful. -/
theorem warm_and_take_lawful : Steps (step {}) (Lawful {}) .start warmAndTake :=
  (pool_lawful_iff {} warmAndTake _ rfl).mpr (by decide +kernel)

/-- **The laws are broken**: the client of a connection that is dropped is gone, and the next `get` makes
    another; and a pool for one connection that is warmed while it is in use has two. -/
theorem pool_laws_broken :
    (∃ c, run (step {}) .start (doing 0 .useConnection 8) = some c ∧ c.state.connectionsCreated = 1 ∧
      c.state.idle = [] ∧ c.state.inUse = ∅) ∧
    (∃ c, run (step {}) .start (doing 0 .useConnection 8 ++ doing 1 .useConnection 5) = some c ∧
      c.state.connectionsCreated = 2 ∧ c.state.inUse = {1}) ∧
    (∃ c, run (step { maxConnections := 1 }) .start (doing 0 .useConnection 5 ++ doing 1 .warm 3) = some c ∧
      c.state.idle.length + c.state.inUse.card = 2) ∧
    ¬ Steps (step {}) (Lawful {}) .start (doing 0 .useConnection 8) ∧
    ¬ Steps (step { maxConnections := 1 }) (Lawful { maxConnections := 1 }) .start
      (doing 0 .useConnection 5 ++ doing 1 .warm 3) :=
  ⟨⟨_, rfl, rfl, rfl, rfl⟩, ⟨_, rfl, rfl, rfl⟩, ⟨_, rfl, rfl⟩, by decide +kernel, by decide +kernel⟩

end Smppd.Cluster.ConnectionPool
