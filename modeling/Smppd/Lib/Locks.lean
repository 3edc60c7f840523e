/-
  READER-WRITER LOCKS, as the guards that are alive.

  A guard is a lock and the mode in which it is held.  Nothing else is kept of a lock: it can be had in a mode as
  long as no OTHER task has a guard that excludes it (`Free`).  What a task holds and what it waits for are
  functions of the task, given by whoever instantiates this.

  A deadlock is a set of tasks each of which waits for another one of the set.  If tasks take their locks in one
  order, that is, wait only for what ranks above all that they hold, there is none; put the other way round, in a
  deadlock somebody does not keep to the order (`exists_unordered`).
-/
import Mathlib.Logic.Function.Basic
import Mathlib.Data.Set.Basic
import Mathlib.Data.Fintype.Basic
import Mathlib.Order.WellFounded

namespace Locks

/-- How a lock is held. -/
inductive Mode where
  | read
  | write
  deriving DecidableEq

variable {ι L : Type*}

/-- A lock, and how it is held. -/
abbrev Guard (L : Type*) := L × Mode

/-- Two guards that exclude each other: of one lock, and not both for reading. -/
def Conflict (g h : Guard L) : Prop := g.1 = h.1 ∧ (g.2 = .write ∨ h.2 = .write)

instance [DecidableEq L] (g h : Guard L) : Decidable (Conflict g h) := inferInstanceAs (Decidable (_ ∧ _))

theorem Conflict.symm {g h : Guard L} (hconflict : Conflict g h) : Conflict h g :=
  ⟨hconflict.1.symm, hconflict.2.symm⟩

variable {held : ι → List (Guard L)} {wants : ι → Option (Guard L)}

/-! ## Who may have a guard -/

/-- No other task has a guard that excludes this one. -/
def Free (held : ι → List (Guard L)) (i : ι) (g : Guard L) : Prop := ∀ j, j ≠ i → ∀ h ∈ held j, ¬ Conflict g h

instance [Fintype ι] [DecidableEq ι] [DecidableEq L] (i : ι) (g : Guard L) : Decidable (Free held i g) :=
  inferInstanceAs (Decidable (∀ _, _))

/-- **Mutual exclusion**: guards that exclude each other are held by one task. -/
def Exclusive (held : ι → List (Guard L)) : Prop :=
  ∀ i j, i ≠ j → ∀ g ∈ held i, ∀ h ∈ held j, ¬ Conflict g h

/-- A task that drops guards, or takes one that is free, keeps the exclusion. -/
theorem Exclusive.update [DecidableEq ι] (hexclusive : Exclusive held) {i : ι} {guards : List (Guard L)}
    (hguards : ∀ g ∈ guards, g ∈ held i ∨ Free held i g) : Exclusive (Function.update held i guards) := by
  have hnew : ∀ j, j ≠ i → ∀ g ∈ guards, ∀ h ∈ held j, ¬ Conflict g h := by
    intro j hj g hg h hh
    rcases hguards g hg with hold | hfree
    · exact hexclusive i j (Ne.symm hj) g hold h hh
    · exact hfree j hj h hh
  intro j k hjk g hg h hh
  by_cases hj : j = i
  · subst hj
    rw [Function.update_self] at hg
    rw [Function.update_of_ne (Ne.symm hjk)] at hh
    exact hnew k (Ne.symm hjk) g hg h hh
  · rw [Function.update_of_ne hj] at hg
    by_cases hk : k = i
    · subst hk
      rw [Function.update_self] at hh
      exact fun hconflict => hnew j hj h hh g hg hconflict.symm
    · rw [Function.update_of_ne hk] at hh
      exact hexclusive j k hjk g hg h hh

/-! ## Deadlocks -/

/-- A task waits for another one: that one has a guard which excludes what it wants. -/
def WaitsFor (held : ι → List (Guard L)) (wants : ι → Option (Guard L)) (i j : ι) : Prop :=
  j ≠ i ∧ ∃ g, wants i = some g ∧ ∃ h ∈ held j, Conflict g h

/-- **A deadlock**: some tasks, each of which waits for another one of them. -/
def Deadlock (held : ι → List (Guard L)) (wants : ι → Option (Guard L)) : Prop :=
  ∃ tasks : Set ι, tasks.Nonempty ∧ ∀ i ∈ tasks, ∃ j ∈ tasks, WaitsFor held wants i j

theorem WaitsFor.not_free {i j : ι} {g : Guard L} (hwaits : WaitsFor held wants i j) (hwants : wants i = some g) :
    ¬ Free held i g := by
  obtain ⟨hji, g', hwants', h, hh, hconflict⟩ := hwaits
  obtain rfl : g = g' := Option.some.inj (hwants.symm.trans hwants')
  exact fun hfree => hfree j hji h hh hconflict

/-- **Somebody does not keep to the order.**  In a set of tasks that wait for one another, whatever the ranks of
    the locks, there is one that has a lock not below the one it wants. -/
theorem exists_unordered {ρ : Type*} [Preorder ρ] [WellFoundedGT ρ] (rank : L → ρ) {tasks : Set ι}
    (hsome : tasks.Nonempty) (hwait : ∀ i ∈ tasks, ∃ j ∈ tasks, WaitsFor held wants i j) :
    ∃ i ∈ tasks, ∃ g, wants i = some g ∧ ∃ h ∈ held i, ¬ rank h.1 < rank g.1 := by
  by_contra hordered
  push Not at hordered
  -- along the tasks that wait for each other, what they want ranks higher and higher
  have hnone : ∀ r, ∀ i ∈ tasks, ∀ g, wants i = some g → rank g.1 = r → False := by
    intro r
    induction r using WellFoundedGT.induction with
    | ind r ih =>
      rintro i hi g hwants rfl
      obtain ⟨j, hj, -, g', hwants', h, hh, hconflict⟩ := hwait i hi
      obtain rfl : g = g' := Option.some.inj (hwants.symm.trans hwants')
      obtain ⟨-, -, -, gj, hwantsj, -⟩ := hwait j hj
      have hlt := hordered j hj gj hwantsj h hh
      rw [← hconflict.1] at hlt
      exact ih _ hlt j hj gj hwantsj rfl
  obtain ⟨i, hi⟩ := hsome
  obtain ⟨-, -, -, g, hwants, -⟩ := hwait i hi
  exact hnone _ i hi g hwants rfl

end Locks
