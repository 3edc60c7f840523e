/-
  TOKEN BUCKETS: how many tokens can be taken in a window of time.

  A bucket holds at most `capacity` tokens.  `rate` of them become due in every `unit` of time, and are put
  in by REFILLS: one that reads the time `now` puts in at most what has become due since the time `last` that
  the refill before it has read, and what does not fit is lost.  A TAKE takes one token.

  Nothing is said of how refills and takes are brought about; `Metered` is what such a history keeps, stated
  of the tokens, of `last`, of the times of the takes so far and of the present time.  Since the bucket was
  made no more can have been taken than it held then and than became due (`Metered.since_start`).  In an
  arbitrary window the bound has ONE token more (`Metered.window_le`), because the first take in the window may
  find a credit that became due before it; and it holds only if no take finds a whole token due that was not
  put in (the hypothesis of `Metered.take`).
-/
import Mathlib.Algebra.Order.Field.Rat
import Mathlib.Algebra.Order.Ring.Rat
import Mathlib.Data.List.Count
import Mathlib.Tactic.FieldSimp
import Mathlib.Tactic.Linarith
import Mathlib.Tactic.Positivity
import Mathlib.Tactic.Push
import Mathlib.Tactic.Ring

namespace Bucket

/-- What a bucket is set to. -/
structure Terms where
  rate : Nat
  capacity : Nat
  /-- The time in which `rate` tokens become due. -/
  unit : Nat
  unit_pos : 0 < unit

/-- What becomes due in some time. -/
def accrued (terms : Terms) (span : Nat) : ℚ := terms.rate * span / terms.unit

/-! ## Counting takes -/

/-- The takes at or after a time. -/
def since (start : Int) (log : List Int) : Nat := log.countP fun t => decide (start ≤ t)

/-- The takes in an interval, its ends included. -/
def within (start stop : Int) (log : List Int) : Nat := log.countP fun t => decide (start ≤ t ∧ t ≤ stop)

theorem within_le_since (start stop : Int) (log : List Int) : within start stop log ≤ since start log := by
  refine List.countP_mono_left fun t _ h => ?_
  simp only [decide_eq_true_eq] at h ⊢
  exact h.1

theorem within_le_length (start stop : Int) (log : List Int) : within start stop log ≤ log.length :=
  List.countP_le_length

theorem since_append (start t : Int) (log : List Int) :
    since start (log ++ [t]) = since start log + if start ≤ t then 1 else 0 := by
  unfold since
  rw [List.countP_append, List.countP_singleton]
  simp only [decide_eq_true_eq]

/-- A take after the interval is not in it. -/
theorem within_append_of_lt {start stop t : Int} (h : stop < t) (log : List Int) :
    within start stop (log ++ [t]) = within start stop log := by
  unfold within
  rw [List.countP_append, List.countP_singleton]
  have hout : ¬ (start ≤ t ∧ t ≤ stop) := fun hin => absurd hin.2 (not_le.mpr h)
  simp [hout]

/-- Nothing was taken from a time on that lies ahead. -/
theorem since_eq_zero {start time : Int} {log : List Int} (hpast : ∀ t ∈ log, t ≤ time) (h : time < start) :
    since start log = 0 := by
  unfold since
  rw [List.countP_eq_zero]
  intro t ht hle
  have hafter : start ≤ t := of_decide_eq_true hle
  have hbefore := hpast t ht
  omega

/-! ## The invariant -/

/-- **What the history of a bucket keeps**, from the time it was made to the present one. -/
structure Metered (terms : Terms) (made : Int) (tokens : Nat) (last : Int) (log : List Int) (time : Int) : Prop where
  capped : tokens ≤ terms.capacity
  behind : last ≤ time
  past : ∀ t ∈ log, t ≤ time
  /-- What was taken and what is left was there at first or has become due. -/
  spent : ((log.length + tokens : Nat) : Int) * terms.unit ≤ terms.capacity * terms.unit + terms.rate * (last - made)
  /-- The same from the first take of a window on; at that take less than one token was due. -/
  owed : ∀ start, 0 < since start log →
    ((since start log + tokens : Nat) : Int) * terms.unit < (terms.capacity + 1) * terms.unit + terms.rate * (last - start)
  begun : ∀ stop, made ≤ stop →
    (within made stop log : Int) * terms.unit ≤ terms.capacity * terms.unit + terms.rate * (stop - made)
  window : ∀ start stop, start ≤ stop →
    (within start stop log : Int) * terms.unit ≤ (terms.capacity + 1) * terms.unit + terms.rate * (stop - start)

namespace Metered

variable {terms : Terms} {made last time : Int} {tokens : Nat} {log : List Int}

/-- A bucket is made full. -/
theorem new (terms : Terms) (made : Int) : Metered terms made terms.capacity made [] made where
  capped := Nat.le_refl _
  behind := le_refl _
  past := fun t ht => absurd ht List.not_mem_nil
  spent := by simp
  owed := fun start h => absurd h (by simp [since])
  begun := fun stop h => by
    have hheld : 0 ≤ (terms.capacity : Int) * terms.unit := by positivity
    have hdue : 0 ≤ (terms.rate : Int) * (stop - made) := mul_nonneg (Int.natCast_nonneg _) (by omega)
    simp only [within, List.countP_nil]
    omega
  window := fun start stop h => by
    have hheld : 0 ≤ ((terms.capacity : Int) + 1) * terms.unit := by positivity
    have hdue : 0 ≤ (terms.rate : Int) * (stop - start) := mul_nonneg (Int.natCast_nonneg _) (by omega)
    simp only [within, List.countP_nil]
    omega

/-- Time passes. -/
theorem wait (h : Metered terms made tokens last log time) {time' : Int} (htime : time ≤ time') :
    Metered terms made tokens last log time' :=
  { h with behind := h.behind.trans htime, past := fun t ht => (h.past t ht).trans htime }

/-- **A refill** that has read the time `now` puts in at most what has become due. -/
theorem refill (h : Metered terms made tokens last log time) {now : Int} {tokens' due : Nat} (hnow : now ≤ time)
    (hdue : (due : Int) * terms.unit ≤ terms.rate * (now - last))
    (hput : tokens' ≤ tokens + due) (hcap : tokens' ≤ terms.capacity) :
    Metered terms made tokens' now log time := by
  have hunit : (0 : Int) ≤ terms.unit := Int.natCast_nonneg _
  have hgrow : ∀ n : Nat, ((n + tokens' : Nat) : Int) * terms.unit ≤
      ((n + tokens : Nat) : Int) * terms.unit + terms.rate * (now - last) := by
    intro n
    have hle : ((n + tokens' : Nat) : Int) ≤ ((n + tokens : Nat) : Int) + due := by omega
    calc ((n + tokens' : Nat) : Int) * terms.unit
        ≤ (((n + tokens : Nat) : Int) + due) * terms.unit := mul_le_mul_of_nonneg_right hle hunit
      _ = ((n + tokens : Nat) : Int) * terms.unit + due * terms.unit := by ring
      _ ≤ _ := by omega
  refine { capped := hcap, behind := hnow, past := h.past, spent := ?_, owed := ?_, begun := h.begun, window := h.window }
  · calc _ ≤ _ := hgrow log.length
      _ ≤ terms.capacity * terms.unit + terms.rate * (last - made) + terms.rate * (now - last) := by
        have := h.spent
        omega
      _ = _ := by ring
  · intro start hpos
    calc _ ≤ _ := hgrow (since start log)
      _ < (terms.capacity + 1) * terms.unit + terms.rate * (last - start) + terms.rate * (now - last) := by
        have := h.owed start hpos
        omega
      _ = _ := by ring

/-- **A take**, when less than one token is due that was not put in. -/
theorem take (h : Metered terms made tokens last log time) (hpos : 0 < tokens)
    (hfresh : terms.rate * (time - last) < (terms.unit : Int)) :
    Metered terms made (tokens - 1) last (log ++ [time]) time := by
  have hunit : (0 : Int) ≤ terms.unit := Int.natCast_nonneg _
  have hspent : (((log ++ [time]).length + (tokens - 1) : Nat) : Int) * terms.unit ≤
      terms.capacity * terms.unit + terms.rate * (last - made) := by
    have hsame : (log ++ [time]).length + (tokens - 1) = log.length + tokens := by
      rw [List.length_append, List.length_singleton]
      omega
    rw [hsame]
    exact h.spent
  have howed : ∀ start, 0 < since start (log ++ [time]) →
      ((since start (log ++ [time]) + (tokens - 1) : Nat) : Int) * terms.unit <
        (terms.capacity + 1) * terms.unit + terms.rate * (last - start) := by
    intro start hsince
    rw [since_append] at hsince ⊢
    by_cases hle : start ≤ time
    · rw [if_pos hle]
      have hsame : since start log + 1 + (tokens - 1) = since start log + tokens := by omega
      rw [hsame]
      by_cases hold : 0 < since start log
      · exact h.owed start hold
      · -- the first take of the window
        have hzero : since start log = 0 := by omega
        have hcap : (tokens : Int) * terms.unit ≤ terms.capacity * terms.unit :=
          mul_le_mul_of_nonneg_right (by exact_mod_cast h.capped) hunit
        have hdue : (terms.rate : Int) * (start - last) ≤ terms.rate * (time - last) :=
          mul_le_mul_of_nonneg_left (by omega) (Int.natCast_nonneg _)
        have hturn : (terms.rate : Int) * (last - start) = -(terms.rate * (start - last)) := by ring
        have hone : ((terms.capacity : Int) + 1) * terms.unit = terms.capacity * terms.unit + terms.unit := by ring
        rw [hzero, Nat.zero_add, hturn, hone]
        omega
    · rw [if_neg hle, Nat.add_zero, since_eq_zero h.past (not_le.mp hle)] at hsince
      exact absurd hsince (Nat.lt_irrefl 0)
  refine
    { capped := (Nat.sub_le _ _).trans h.capped, behind := h.behind, past := ?_, spent := hspent, owed := howed,
      begun := ?_, window := ?_ }
  · intro t ht
    rcases List.mem_append.mp ht with ht | ht
    · exact h.past t ht
    · rw [List.mem_singleton.mp ht]
  · intro stop hstop
    by_cases hlt : stop < time
    · rw [within_append_of_lt hlt]
      exact h.begun stop hstop
    · have hcount : (within made stop (log ++ [time]) : Int) * terms.unit ≤
          (((log ++ [time]).length + (tokens - 1) : Nat) : Int) * terms.unit := by
        refine mul_le_mul_of_nonneg_right ?_ hunit
        have := within_le_length made stop (log ++ [time])
        omega
      have hlater : (terms.rate : Int) * (last - made) ≤ terms.rate * (stop - made) := by
        have := h.behind
        exact mul_le_mul_of_nonneg_left (by omega) (Int.natCast_nonneg _)
      omega
  · intro start stop hle
    by_cases hlt : stop < time
    · rw [within_append_of_lt hlt]
      exact h.window start stop hle
    · by_cases hsince : 0 < since start (log ++ [time])
      · have hcount : (within start stop (log ++ [time]) : Int) * terms.unit ≤
            ((since start (log ++ [time]) + (tokens - 1) : Nat) : Int) * terms.unit := by
          refine mul_le_mul_of_nonneg_right ?_ hunit
          have := within_le_since start stop (log ++ [time])
          omega
        have hlater : (terms.rate : Int) * (last - start) ≤ terms.rate * (stop - start) := by
          have := h.behind
          exact mul_le_mul_of_nonneg_left (by omega) (Int.natCast_nonneg _)
        have := howed start hsince
        omega
      · have hzero : within start stop (log ++ [time]) = 0 := by
          have := within_le_since start stop (log ++ [time])
          omega
        have hheld : 0 ≤ ((terms.capacity : Int) + 1) * terms.unit := by positivity
        have hdue : 0 ≤ (terms.rate : Int) * (stop - start) := mul_nonneg (Int.natCast_nonneg _) (by omega)
        rw [hzero]
        omega

/-! ## The bounds -/

/-- A bound in units of time is a bound in tokens. -/
theorem le_accrued {n base span : Nat}
    (h : (n : Int) * terms.unit ≤ base * terms.unit + terms.rate * (span : Int)) :
    (n : ℚ) ≤ base + accrued terms span := by
  have hunit : (0 : ℚ) < terms.unit := by exact_mod_cast terms.unit_pos
  have hcast : (n : ℚ) * terms.unit ≤ base * terms.unit + terms.rate * span := by exact_mod_cast h
  have hclear : (base + accrued terms span) * terms.unit = (base : ℚ) * terms.unit + terms.rate * span := by
    unfold accrued
    field_simp
  exact le_of_mul_le_mul_right (hcast.trans_eq hclear.symm) hunit

/-- **Since the bucket was made**: what it held, and what has become due. -/
theorem since_start (h : Metered terms made tokens last log time) (span : Nat) :
    (within made (made + span) log : ℚ) ≤ terms.capacity + accrued terms span := by
  refine le_accrued ?_
  have := h.begun (made + span) (by omega)
  rwa [add_sub_cancel_left] at this

/-- **In any window**: one more. -/
theorem window_le (h : Metered terms made tokens last log time) (start : Int) (span : Nat) :
    (within start (start + span) log : ℚ) ≤ terms.capacity + accrued terms span + 1 := by
  have hwindow := h.window start (start + span) (by omega)
  rw [add_sub_cancel_left] at hwindow
  have hbound : (within start (start + span) log : ℚ) ≤ (terms.capacity + 1 : Nat) + accrued terms span :=
    le_accrued (by push_cast; exact hwindow)
  push_cast at hbound
  linarith

end Metered

end Bucket
