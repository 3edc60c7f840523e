/-
  THREADS over reader-writer locks.

  A `LockedProgram` says of a thread what guards it has, which one it waits for, and what it does next once it has
  that; a thread has no guard that it did not wait for, and the program carries the proof.  Any number of threads
  run it over one store, and a step is taken by one whose guard is free.

  For such threads the locks exclude (`exclusive_run`).  Where they take the locks in an order, somebody can always
  go on (`exists_can_go`).
-/
import Smppd.Lib.Machine
import Smppd.Lib.Locks

namespace Locks

open Machine

/-- What a thread has, waits for and does; `C` are the calls that it can begin. -/
structure LockedProgram (T C S L : Type*) where
  held : T → List (Guard L)
  wants : T → Option (Guard L)
  /-- What it does next, once it has the guard that it wants. -/
  next : C → S → T → T × S
  held_next : ∀ call store task, ∀ g ∈ held (next call store task).1, g ∈ held task ∨ wants task = some g

/-- A store, and the threads that use it. -/
structure Threads (ι T S : Type*) where
  tasks : ι → T
  store : S

variable {ι T C S L : Type*}

namespace LockedProgram

variable (P : LockedProgram T C S L) (s : Threads ι T S)

/-- The guards of each thread. -/
def heldBy : ι → List (Guard L) := fun i => P.held (s.tasks i)

/-- What each of them waits for. -/
def wantedBy : ι → Option (Guard L) := fun i => P.wants (s.tasks i)

variable [DecidableEq ι]

/-- A thread goes on. -/
def go (i : ι) (call : C) : Threads ι T S :=
  ⟨Function.update s.tasks i (P.next call s.store (s.tasks i)).1, (P.next call s.store (s.tasks i)).2⟩

/-- One thread goes on, if the guard that it wants is free. -/
def step [Fintype ι] [DecidableEq L] (s : Threads ι T S) (label : ι × C) : Option (Threads ι T S) :=
  if ∀ g ∈ P.wantedBy s label.1, Free (P.heldBy s) label.1 g then some (P.go s label.1 label.2) else none

variable {P s} {s' : Threads ι T S} {i j : ι} {call : C}

theorem go_self : (P.go s i call).tasks i = (P.next call s.store (s.tasks i)).1 := Function.update_self _ _ _

theorem go_of_ne (hji : j ≠ i) : (P.go s i call).tasks j = s.tasks j := Function.update_of_ne hji _ _

theorem heldBy_go : P.heldBy (P.go s i call) =
    Function.update (P.heldBy s) i (P.held (P.next call s.store (s.tasks i)).1) := by
  funext j
  exact Function.apply_update (fun _ => P.held) s.tasks i _ j

variable [Fintype ι] [DecidableEq L]

theorem step_eq_some : P.step s (i, call) = some s' ↔
    (∀ g ∈ P.wantedBy s i, Free (P.heldBy s) i g) ∧ s' = P.go s i call :=
  Option.ite_none_right_eq_some.trans (and_congr_right fun _ => ⟨Eq.symm ∘ Option.some.inj, fun h => congrArg some h.symm⟩)

/-! ## Mutual exclusion -/

theorem exclusive_step (hexclusive : Exclusive (P.heldBy s)) (hstep : P.step s (i, call) = some s') :
    Exclusive (P.heldBy s') := by
  obtain ⟨hfree, rfl⟩ := step_eq_some.mp hstep
  rw [heldBy_go]
  exact hexclusive.update fun g hg => (P.held_next _ _ _ g hg).imp_right (hfree g)

/-- **The locks exclude**, whatever the threads do, if nobody has a guard in the beginning. -/
theorem exclusive_run (hstart : ∀ i, P.heldBy s i = []) {labels : List (ι × C)} (hrun : run P.step s labels = some s') :
    Exclusive (P.heldBy s') := by
  refine run_inv (fun t label t' h hstep => exclusive_step h hstep) (fun i j hij g hg => ?_) hrun
  rw [hstart i] at hg
  exact absurd hg List.not_mem_nil

/-! ## Progress -/

omit [Fintype ι] [DecidableEq ι] [DecidableEq L] in
/-- **Somebody can go on.**  Where the threads take their locks in an order, of those that are busy one waits for
    nothing or gets what it waits for, if no guard is with a thread that is not. -/
theorem exists_can_go {ρ : Type*} [Preorder ρ] [WellFoundedGT ρ] (rank : L → ρ)
    (hordered : ∀ task g h, P.wants task = some g → h ∈ P.held task → rank h.1 < rank g.1) {busy : Set ι}
    (hsome : busy.Nonempty) (hholders : ∀ i, i ∉ busy → P.heldBy s i = []) :
    ∃ i ∈ busy, ∀ g ∈ P.wantedBy s i, Free (P.heldBy s) i g := by
  by_contra hstuck
  push Not at hstuck
  have hwait : ∀ i ∈ busy, ∃ j ∈ busy, WaitsFor (P.heldBy s) (P.wantedBy s) i j := by
    intro i hi
    obtain ⟨g, hwants, htaken⟩ := hstuck i hi
    unfold Free at htaken
    push Not at htaken
    obtain ⟨j, hji, h, hh, hconflict⟩ := htaken
    refine ⟨j, ?_, hji, g, hwants, h, hh, hconflict⟩
    by_contra hj
    rw [hholders j hj] at hh
    exact absurd hh List.not_mem_nil
  obtain ⟨i, -, g, hwants, h, hh, hnot⟩ := exists_unordered rank hsome hwait
  exact hnot (hordered _ g h hwants hh)

end LockedProgram

end Locks
