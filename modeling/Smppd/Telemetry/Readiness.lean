/-
  READINESS (`src/telemetry/metrics.rs`, `AdminState`): whether all the clusters that the service needs are healthy.

  The names of the clusters and their health are under two reader-writer locks, and the answer is a flag of its own,
  which every call that changes either of them brings up to date afterwards.  Any number of threads call at once.
  A thread gives its write guards back before it evaluates, so that the flag may be set by another one, and late.

  1. `ready_when_quiet` — whenever no call is going on, the flag says what `get_dependency_status` says.  The crux
     is that `update_readiness` stores under BOTH read guards: what it has evaluated cannot be out of date then.

  2. `never_stuck` — the locks are always taken in one order, and as long as a call is going on, some call can go on.

  `set_ready` and `mark_ready` set the flag by hand; (1) is about runs without them.  The counters are left out.
-/
import Mathlib.Algebra.BigOperators.Group.Finset.Basic
import Mathlib.Data.Fintype.Card
import Smppd.Lib.LockedThreads
import Smppd.Lib.Table

set_option linter.unusedVariables false

namespace Smppd.Telemetry

open Machine Table Locks

/-! ## The state -/

/-- Admin state for the readiness endpoint. -/
structure AdminState where
  ready : Bool
  /-- Upstream cluster health status. -/
  clusterHealth : Tbl String Bool
  /-- Required clusters that must be healthy for readiness. -/
  requiredClusters : List String

/-- Dependency status for readiness checks. -/
structure DependencyStatus where
  name : String
  healthy : Bool
  message : Option String
  deriving DecidableEq

namespace AdminState

/-- Ready by default if no dependencies registered. -/
def new : AdminState := ⟨true, ∅, []⟩

/-- A cluster that is not known is not healthy. -/
def healthOf (self : AdminState) (cluster : String) : Bool := (self.clusterHealth.lookup cluster).getD false

/-- What `update_readiness` evaluates. -/
def allHealthy (self : AdminState) : Bool :=
  if self.requiredClusters.isEmpty then true else self.requiredClusters.all self.healthOf

/-- `get_dependency_status`. -/
def dependencyStatus (self : AdminState) : List DependencyStatus :=
  self.requiredClusters.map fun name =>
    let healthy := self.healthOf name
    { name, healthy, message := if healthy then none else some "cluster unhealthy or unreachable" }

/-- The first block of `register_cluster`: the name, unless it is there. -/
def require (self : AdminState) (cluster : String) : AdminState :=
  if cluster ∈ self.requiredClusters then self
  else { self with requiredClusters := self.requiredClusters ++ [cluster] }

/-- Initially mark as unhealthy. -/
def enter (self : AdminState) (cluster : String) : AdminState :=
  { self with clusterHealth := orInsert cluster false self.clusterHealth }

/-- What is stored is what the dependencies are said to be. -/
theorem allHealthy_eq (self : AdminState) : self.allHealthy = self.dependencyStatus.all DependencyStatus.healthy := by
  rw [allHealthy, dependencyStatus, List.all_map]
  cases hnone : self.requiredClusters with
  | nil => rfl
  | cons cluster clusters => rfl

end AdminState

/-! ## Threads -/

/-- The two locks of an `AdminState`, in the order in which they are taken. -/
inductive Lock where
  | requiredClusters
  | clusterHealth
  deriving DecidableEq

/-- The calls on an `AdminState`. -/
inductive AdminCall where
  | registerCluster (cluster : String)
  | setClusterHealth (cluster : String) (healthy : Bool)
  | getDependencyStatus
  | setReady (ready : Bool)
  | markReady

/-- The flag is set by hand. -/
def AdminCall.overrides : AdminCall → Bool
  | .setReady _ | .markReady => true
  | _ => false

/-- Where a thread is. -/
inductive Task where
  | idle
  /-- `register_cluster`: about to write the names. -/
  | registering (cluster : String)
  /-- With the names, which have it now: about to write the health. -/
  | entering (cluster : String)
  /-- `set_cluster_health`: about to write the health. -/
  | setting (cluster : String) (healthy : Bool)
  /-- Its guards are dropped, one after the other; then it calls `update_readiness`, or is done. -/
  | leaving (guards : List (Guard Lock)) (updates : Bool)
  /-- `update_readiness`: about to read the names. -/
  | updating
  /-- With the names: about to read the health. -/
  | evaluating
  /-- With both: about to store what it has evaluated. -/
  | storing (allHealthy : Bool)
  /-- `get_dependency_status`: about to read the names. -/
  | listing
  /-- With the names: about to read the health. -/
  | listed
  deriving DecidableEq

namespace Task

/-- The guards of a thread that are alive. -/
def held : Task → List (Guard Lock)
  | .idle | .registering _ | .setting _ _ | .updating | .listing => []
  | .entering _ => [(.requiredClusters, .write)]
  | .leaving guards _ => guards
  | .evaluating | .listed => [(.requiredClusters, .read)]
  | .storing _ => [(.clusterHealth, .read), (.requiredClusters, .read)]

/-- The guard that a thread waits for. -/
def wants : Task → Option (Guard Lock)
  | .registering _ => some (.requiredClusters, .write)
  | .entering _ | .setting _ _ => some (.clusterHealth, .write)
  | .updating | .listing => some (.requiredClusters, .read)
  | .evaluating | .listed => some (.clusterHealth, .read)
  | .idle | .leaving _ _ | .storing _ => none

/-- What a thread does next, once it has the guard that it wants. -/
def next (call : AdminCall) (state : AdminState) : Task → Task × AdminState
  | .idle =>
    match call with
    | .registerCluster cluster => (.registering cluster, state)
    | .setClusterHealth cluster healthy => (.setting cluster healthy, state)
    | .getDependencyStatus => (.listing, state)
    | .setReady ready => (.idle, { state with ready := ready })
    | .markReady => (.idle, { state with ready := true })
  | .registering cluster => (.entering cluster, state.require cluster)
  | .entering cluster => (.leaving [(.clusterHealth, .write), (.requiredClusters, .write)] true, state.enter cluster)
  | .setting cluster healthy =>
    (.leaving [(.clusterHealth, .write)] true,
      { state with clusterHealth := state.clusterHealth.insert cluster healthy })
  | .leaving (_ :: guards) updates => (.leaving guards updates, state)
  | .leaving [] true => (.updating, state)
  | .leaving [] false => (.idle, state)
  | .updating => (.evaluating, state)
  | .evaluating => (.storing state.allHealthy, state)
  | .storing allHealthy =>
    (.leaving [(.clusterHealth, .read), (.requiredClusters, .read)] false, { state with ready := allHealthy })
  | .listing => (.listed, state)
  | .listed => (.leaving [(.clusterHealth, .read), (.requiredClusters, .read)] false, state)

theorem held_next (call : AdminCall) (state : AdminState) (task : Task) :
    ∀ g ∈ held (task.next call state).1, g ∈ task.held ∨ task.wants = some g := by
  intro g hg
  cases task with
  | idle => cases call <;> cases hg
  | leaving guards updates =>
    cases guards with
    | nil => cases updates <;> cases hg
    | cons g' guards => exact .inl (List.mem_cons_of_mem g' hg)
  | registering cluster | setting cluster healthy | updating | listing =>
    exact .inr (congrArg some (List.mem_singleton.mp hg).symm)
  | entering cluster | evaluating | listed =>
    rcases List.mem_cons.mp hg with rfl | hg
    · exact .inr rfl
    · exact .inl hg
  | storing allHealthy => exact .inl hg

/-- It has changed something, or is about to evaluate, and will store. -/
def owes : Task → Bool
  | .entering _ | .updating | .evaluating | .storing _ => true
  | .leaving _ updates => updates
  | _ => false

end Task

/-- The calls of `AdminState` as programs over its locks. -/
def program : LockedProgram Task AdminCall AdminState Lock := ⟨Task.held, Task.wants, Task.next, Task.held_next⟩

variable {ι : Type} [Fintype ι] [DecidableEq ι] {s s' : Threads ι Task AdminState} {i j : ι} {call : AdminCall}

/-- No call has begun. -/
def quiet (state : AdminState) : Threads ι Task AdminState := ⟨fun _ => .idle, state⟩

/-! ## The flag -/

/-- Only who waits for a write guard changes what is evaluated. -/
theorem allHealthy_next (call : AdminCall) (state : AdminState) {task : Task}
    (hreads : ∀ lock, task.wants ≠ some (lock, .write)) : (task.next call state).2.allHealthy = state.allHealthy := by
  cases task with
  | idle => cases call <;> rfl
  | leaving guards updates =>
    cases guards with
    | nil => cases updates <;> rfl
    | cons g guards => rfl
  | registering cluster | entering cluster | setting cluster healthy => exact absurd rfl (hreads _)
  | _ => rfl

/-- What a step is for the flag: it leaves something owed, or it pays, or it changes nothing. -/
theorem owes_next (hcall : call.overrides = false) (state : AdminState) (task : Task) :
    (task.next call state).1.owes = true ∨ (∃ allHealthy, task = .storing allHealthy) ∨
      (task.owes = false ∧ (task.next call state).2 = state) := by
  cases task with
  | idle =>
    cases call with
    | setReady ready | markReady => exact nomatch hcall
    | _ => exact .inr (.inr ⟨rfl, rfl⟩)
  | storing allHealthy => exact .inr (.inl ⟨allHealthy, rfl⟩)
  | leaving guards updates =>
    cases guards with
    | nil =>
      cases updates with
      | false => exact .inr (.inr ⟨rfl, rfl⟩)
      | true => exact .inl rfl
    | cons g guards =>
      cases updates with
      | false => exact .inr (.inr ⟨rfl, rfl⟩)
      | true => exact .inl rfl
  | listing | listed => exact .inr (.inr ⟨rfl, rfl⟩)
  | _ => exact .inl rfl

/-- The invariant: what is about to be stored is up to date, and a flag that is not is about to be stored. -/
structure Sound (s : Threads ι Task AdminState) : Prop where
  storing : ∀ i allHealthy, s.tasks i = .storing allHealthy → allHealthy = s.store.allHealthy
  flag : s.store.ready = s.store.allHealthy ∨ ∃ i, (s.tasks i).owes = true

omit [Fintype ι] [DecidableEq ι] in
/-- While somebody is about to store, nobody gets a write guard. -/
theorem not_free_of_storing {allHealthy : Bool} (hj : s.tasks j = .storing allHealthy) (hji : j ≠ i) (lock : Lock) :
    ¬ Free (program.heldBy s) i (lock, .write) := by
  intro hfree
  have hheld : program.heldBy s j = [(.clusterHealth, .read), (.requiredClusters, .read)] := congrArg Task.held hj
  have hguard : (lock, Mode.read) ∈ program.heldBy s j := by
    rw [hheld]
    cases lock <;> decide
  exact hfree j hji _ hguard ⟨rfl, .inl rfl⟩

omit [Fintype ι] in
theorem sound_go (h : Sound s) (hcall : call.overrides = false)
    (hfree : ∀ g ∈ program.wantedBy s i, Free (program.heldBy s) i g) : Sound (program.go s i call) := by
  -- what somebody is about to store stays up to date
  have hkept : ∀ j, j ≠ i → ∀ allHealthy, s.tasks j = .storing allHealthy →
      ((s.tasks i).next call s.store).2.allHealthy = s.store.allHealthy := fun j hji allHealthy hj =>
    allHealthy_next call s.store fun lock hwants => not_free_of_storing hj hji lock (hfree _ hwants)
  constructor
  · intro j allHealthy hj
    by_cases hji : j = i
    · subst hji
      rw [LockedProgram.go_self] at hj
      show allHealthy = ((s.tasks j).next call s.store).2.allHealthy
      have hnext : ((s.tasks j).next call s.store).1 = .storing allHealthy := hj
      cases htask : s.tasks j with
      | evaluating =>
        rw [htask] at hnext
        exact (Task.storing.inj hnext).symm
      | idle =>
        rw [htask] at hnext
        cases call <;> exact nomatch hnext
      | leaving guards updates =>
        rw [htask] at hnext
        cases guards with
        | nil => cases updates <;> exact nomatch hnext
        | cons g guards => exact nomatch hnext
      | _ =>
        rw [htask] at hnext
        exact nomatch hnext
    · rw [LockedProgram.go_of_ne hji] at hj
      exact (h.storing j allHealthy hj).trans (hkept j hji allHealthy hj).symm
  · rcases owes_next hcall s.store (s.tasks i) with howes | ⟨allHealthy, hstoring⟩ | ⟨hnot, hsame⟩
    · refine .inr ⟨i, ?_⟩
      rw [LockedProgram.go_self]
      exact howes
    · left
      show ((s.tasks i).next call s.store).2.ready = ((s.tasks i).next call s.store).2.allHealthy
      rw [hstoring]
      exact h.storing i allHealthy hstoring
    · have hstore : (program.go s i call).store = s.store := hsame
      rw [hstore]
      refine h.flag.imp_right ?_
      rintro ⟨j, hj⟩
      have hji : j ≠ i := fun hji => Bool.false_ne_true (hnot.symm.trans (hji ▸ hj))
      exact ⟨j, by rw [LockedProgram.go_of_ne hji]; exact hj⟩

theorem sound_run {labels : List (ι × AdminCall)} (hrun : run program.step (quiet .new) labels = some s)
    (hmanual : ∀ label ∈ labels, label.2.overrides = false) : Sound s := by
  have hstep : ∀ (s : Threads ι Task AdminState) (label : ι × AdminCall) s', Sound s → label.2.overrides = false →
      program.step s label = some s' → Sound s' := by
    rintro s ⟨i, call⟩ s' h hcall hstep
    obtain ⟨hfree, rfl⟩ := LockedProgram.step_eq_some.mp hstep
    exact sound_go h hcall hfree
  have hstart : Sound (quiet .new : Threads ι Task AdminState) := ⟨fun i allHealthy hi => (nomatch hi), .inl rfl⟩
  exact meets_inv hstep hstart (meets_of_forall hmanual _) hrun

/-- **The flag is right when it is quiet**: unless it was set by hand, whenever nobody has yet to store, it says that
    all the dependencies are healthy just when they are. -/
theorem ready_when_quiet (labels : List (ι × AdminCall)) (s : Threads ι Task AdminState)
    (hrun : run program.step (quiet .new) labels = some s) (hmanual : ∀ label ∈ labels, label.2.overrides = false)
    (hquiet : ∀ i, (s.tasks i).owes = false) :
    s.store.ready = s.store.dependencyStatus.all DependencyStatus.healthy := by
  rw [← s.store.allHealthy_eq]
  rcases (sound_run hrun hmanual).flag with hflag | ⟨i, howes⟩
  · exact hflag
  · exact nomatch (hquiet i).symm.trans howes

/-! ## Progress -/

/-- How many steps a thread has before it. -/
def Task.remaining : Task → Nat
  | .idle => 0
  | .registering _ => 11
  | .entering _ => 10
  | .setting _ _ => 9
  | .leaving guards updates => guards.length + 1 + (if updates then 6 else 0)
  | .updating => 6
  | .evaluating => 5
  | .storing _ => 4
  | .listing => 5
  | .listed => 4

/-- Nobody goes round in circles. -/
theorem remaining_next {task : Task} (hbusy : task ≠ .idle) (call : AdminCall) (state : AdminState) :
    (task.next call state).1.remaining + 1 = task.remaining := by
  cases task with
  | idle => exact absurd rfl hbusy
  | leaving guards updates =>
    cases guards with
    | nil => cases updates <;> rfl
    | cons g guards => cases updates <;> simp only [Task.next, Task.remaining, List.length_cons] <;> omega
  | _ => rfl

/-- What all of them have before them. -/
def remaining (s : Threads ι Task AdminState) : Nat := Finset.univ.sum fun i => (s.tasks i).remaining

theorem remaining_go (hbusy : s.tasks i ≠ .idle) (call : AdminCall) :
    remaining (program.go s i call) + 1 = remaining s := by
  have hall := Finset.add_sum_erase Finset.univ (fun j => (s.tasks j).remaining) (Finset.mem_univ i)
  have hgo := Finset.add_sum_erase Finset.univ (fun j => ((program.go s i call).tasks j).remaining) (Finset.mem_univ i)
  have hothers : (Finset.univ.erase i).sum (fun j => ((program.go s i call).tasks j).remaining) =
      (Finset.univ.erase i).sum fun j => (s.tasks j).remaining := by
    refine Finset.sum_congr rfl fun j hj => ?_
    rw [LockedProgram.go_of_ne (Finset.ne_of_mem_erase hj)]
  have hself : ((program.go s i call).tasks i).remaining + 1 = (s.tasks i).remaining := by
    rw [LockedProgram.go_self]
    exact remaining_next hbusy call s.store
  rw [hothers] at hgo
  unfold remaining
  omega

/-- The names before the health. -/
def Lock.rank : Lock → Bool
  | .requiredClusters => false
  | .clusterHealth => true

theorem ordered (task : Task) (g h : Guard Lock) (hwants : task.wants = some g) (hheld : h ∈ task.held) :
    h.1.rank < g.1.rank := by
  cases task with
  | entering cluster | evaluating | listed =>
    obtain rfl := Option.some.inj hwants
    obtain rfl := List.mem_singleton.mp hheld
    decide
  | registering cluster | setting cluster healthy | updating | listing => exact absurd hheld List.not_mem_nil
  | _ => exact nomatch hwants

/-- Of those that are busy, one can go on. -/
theorem can_go (hsome : ∃ i, s.tasks i ≠ .idle) :
    ∃ i, s.tasks i ≠ .idle ∧ ∀ call, (program.step s (i, call)).isSome = true := by
  have hidle : ∀ i, i ∉ {i | s.tasks i ≠ .idle} → program.heldBy s i = [] := by
    intro i hi
    have htask : s.tasks i = .idle := not_not.mp hi
    exact congrArg Task.held htask
  obtain ⟨i, hi, hfree⟩ := LockedProgram.exists_can_go Lock.rank ordered hsome hidle
  exact ⟨i, hi, fun call => Option.isSome_iff_exists.mpr ⟨_, LockedProgram.step_eq_some.mpr ⟨hfree, rfl⟩⟩⟩

/-- **Nobody is stuck, and calls end.**  Let threads go on, from any state and in any order, without beginning new
    calls: each step leaves one less to do, and as long as something is left, somebody can take the next one. -/
theorem never_stuck (s : Threads ι Task AdminState) (labels : List (ι × AdminCall)) (s' : Threads ι Task AdminState)
    (hbusy : Meets program.step (fun s label => s.tasks label.1 ≠ .idle) s labels)
    (hrun : run program.step s labels = some s') :
    labels.length + remaining s' = remaining s ∧
      ((∀ i, s'.tasks i = .idle) ∨ ∃ i, s'.tasks i ≠ .idle ∧ ∀ call, (program.step s' (i, call)).isSome = true) := by
  constructor
  · induction labels generalizing s with
    | nil =>
      obtain rfl := Option.some.inj hrun
      exact Nat.zero_add _
    | cons label labels ih =>
      obtain ⟨t, hstep, hrest⟩ := run_cons_eq_some.mp hrun
      have hlater := ih t (hbusy.2 t hstep) hrest
      obtain ⟨i, call⟩ := label
      obtain ⟨-, rfl⟩ := LockedProgram.step_eq_some.mp hstep
      have hone : remaining (program.go s i call) + 1 = remaining s := remaining_go hbusy.1 call
      rw [List.length_cons]
      omega
  · by_cases hidle : ∀ i, s'.tasks i = .idle
    · exact .inl hidle
    · exact .inr (can_go (not_forall.mp hidle))

/-- A cluster is registered, and found healthy by a thread that is held up; a second one registers it once more, and
    stores what the first one has changed. -/
def heldUp : List (Fin 2 × AdminCall) :=
  List.replicate 12 (0, .registerCluster "a") ++ List.replicate 3 (0, .setClusterHealth "a" true) ++
    List.replicate 12 (1, .registerCluster "a")

/-- Everybody is done in the end. -/
def done : List (Fin 2 × AdminCall) := heldUp ++ List.replicate 7 (0, .getDependencyStatus)

theorem ready_when_held_up_is_done :
    ∃ s, run program.step (quiet .new) done = some s ∧
      s.store.ready = s.store.dependencyStatus.all DependencyStatus.healthy := by
  have hdone : (run program.step (quiet .new) done).any (fun s => decide (∀ i, (s.tasks i).owes = false)) = true := by
    decide +kernel
  obtain ⟨s, hrun, hquiet⟩ := (Option.any_eq_true _ _).mp hdone
  exact ⟨s, hrun, ready_when_quiet done s hrun (by decide) (of_decide_eq_true hquiet)⟩

/-- The one that was held up has seven steps left, and takes them. -/
theorem never_stuck_when_held_up :
    ∃ s s', run program.step (quiet .new) heldUp = some s ∧
      run program.step s (List.replicate 7 (0, .getDependencyStatus)) = some s' ∧
      (List.replicate 7 ((0 : Fin 2), AdminCall.getDependencyStatus)).length + remaining s' = remaining s ∧
      ((∀ i, s'.tasks i = .idle) ∨ ∃ i, s'.tasks i ≠ .idle ∧ ∀ call, (program.step s' (i, call)).isSome = true) := by
  have hrest : (run program.step (quiet .new) heldUp).any (fun s =>
      decide (Meets program.step (fun s label => s.tasks label.1 ≠ .idle) s (List.replicate 7 (0, .getDependencyStatus))) &&
        (run program.step s (List.replicate 7 (0, .getDependencyStatus))).isSome) = true := by
    decide +kernel
  obtain ⟨s, hrun, hs⟩ := (Option.any_eq_true _ _).mp hrest
  obtain ⟨hbusy, hsome⟩ := Bool.and_eq_true_iff.mp hs
  obtain ⟨s', hrun'⟩ := Option.isSome_iff_exists.mp hsome
  exact ⟨s, s', hrun, hrun', never_stuck s _ s' (of_decide_eq_true hbusy) hrun'⟩

end Smppd.Telemetry
