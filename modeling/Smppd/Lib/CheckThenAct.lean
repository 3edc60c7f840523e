/-
  CHECK, THEN ACT: tasks that look at a load, and add to it later.

  A task is let through when it finds the load below a limit; what it adds comes when others may have been let
  through as well.  So the limit does not hold, but what is there together with what is on its way is less than
  the limit and one for each task (`Within`): letting through is harmless where the load is below the limit,
  and acting moves one from the way to the load.

  Who is on the way is a property of the tasks; `onTheWay` is the set of those that have it.
-/
import Mathlib.Data.Fintype.Card
import Mathlib.Data.Finset.Card
import Mathlib.Logic.Function.Basic

namespace CheckThenAct

variable {ι τ : Type*} [Fintype ι] [DecidableEq ι]

/-- The tasks that have been let through and have not acted. -/
def onTheWay (through : τ → Bool) (tasks : ι → τ) : Finset ι := Finset.univ.filter fun i => through (tasks i) = true

variable {through : τ → Bool} {tasks : ι → τ} {i : ι} {t : τ}

omit [DecidableEq ι] in
theorem mem_onTheWay : i ∈ onTheWay through tasks ↔ through (tasks i) = true := by
  rw [onTheWay, Finset.mem_filter, and_iff_right (Finset.mem_univ i)]

/-- A task that acts is no longer on the way. -/
theorem onTheWay_update_false (ht : through t = false) :
    onTheWay through (Function.update tasks i t) = (onTheWay through tasks).erase i := by
  ext j
  rw [mem_onTheWay, Finset.mem_erase, mem_onTheWay]
  by_cases hj : j = i
  · subst hj
    rw [Function.update_self, ht]
    exact iff_of_false nofun fun h => h.1 rfl
  · rw [Function.update_of_ne hj, and_iff_right hj]

/-- A task that stays what it is, on the way or not. -/
theorem onTheWay_update_eq (ht : through t = through (tasks i)) :
    onTheWay through (Function.update tasks i t) = onTheWay through tasks := by
  ext j
  rw [mem_onTheWay, mem_onTheWay]
  by_cases hj : j = i
  · subst hj
    rw [Function.update_self, ht]
  · rw [Function.update_of_ne hj]

/-- What is there, together with what is on its way. -/
def Within (through : τ → Bool) (limit load : Nat) (tasks : ι → τ) : Prop :=
  load + (onTheWay through tasks).card < limit + Fintype.card ι

variable {limit load load' : Nat}

omit [DecidableEq ι] in
/-- The load itself is less than the limit and one for each task. -/
theorem Within.load_lt (h : Within through limit load tasks) : load < limit + Fintype.card ι :=
  Nat.lt_of_le_of_lt (Nat.le_add_right _ _) h

omit [DecidableEq ι] in
/-- Below the limit, any of the tasks may be on the way. -/
theorem within_of_lt (hload : load < limit) : Within through limit load tasks :=
  Nat.add_lt_add_of_lt_of_le hload (Finset.card_le_univ _)

/-- **Acting** moves a task from the way to the load. -/
theorem Within.act (h : Within through limit load tasks) (hi : through (tasks i) = true) (ht : through t = false) :
    Within through limit (load + 1) (Function.update tasks i t) := by
  have hcard := Finset.card_erase_add_one (mem_onTheWay.mpr hi)
  unfold Within at h ⊢
  rw [onTheWay_update_false ht]
  omega

/-- A load that does not grow, and a task that is on the way only if it was. -/
theorem Within.update (h : Within through limit load tasks) (hload : load' ≤ load)
    (ht : through t = true → through (tasks i) = true) :
    Within through limit load' (Function.update tasks i t) := by
  have hcard : (onTheWay through (Function.update tasks i t)).card ≤ (onTheWay through tasks).card := by
    cases htrue : through t with
    | true => rw [onTheWay_update_eq (htrue.trans (ht htrue).symm)]
    | false =>
      rw [onTheWay_update_false htrue]
      exact Finset.card_le_card (Finset.erase_subset _ _)
  unfold Within at h ⊢
  omega

end CheckThenAct
