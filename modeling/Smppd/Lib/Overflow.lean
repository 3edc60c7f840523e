/-
  OVERFLOW: arithmetic of a fixed width, and the first least of a list under a comparison that uses it.

  A debug build stops at an operation whose result the type of its operands cannot hold, and a release
  build goes on with another number.  Here such an operation is an error, so that a program whose result is
  `.ok` computes the same in both builds, and exactly.

  * `within size n` — the result `n` of an operation of a type with `size` values;
  * `sum_eq_ok` — a list adds up step by step exactly when its sum fits;
  * `minBy_eq_ok` — a fold that keeps the first of the least under a partial comparison yields the earliest
    element of least key exactly when every comparison it makes has a result.
-/
import Mathlib.Algebra.Ring.Nat
import Smppd.Lib.Fallible
import Smppd.Lib.Rank

/-- An operation whose result does not fit. -/
inductive Overflow where
  | overflow
  deriving DecidableEq

namespace Overflow

open Fallible Rank

variable {α ε : Type}

/-- The exact result of an operation, if it is one of the `size` values of its type. -/
def within (size n : ℕ) : Except Overflow ℕ := if n < size then .ok n else .error .overflow

/-- The values of `u32`. -/
abbrev u32 : ℕ → Except Overflow ℕ := within (2 ^ 32)

/-- The values of `usize`. -/
abbrev usize : ℕ → Except Overflow ℕ := within (2 ^ 64)

theorem within_eq_ok {size n m : ℕ} : within size n = .ok m ↔ n < size ∧ m = n := by
  unfold within
  by_cases h : n < size
  · rw [if_pos h]
    constructor
    · intro heq
      cases heq
      exact ⟨h, rfl⟩
    · rintro ⟨-, rfl⟩
      rfl
  · rw [if_neg h]
    refine iff_of_false (fun heq => ?_) fun heq => h heq.1
    cases heq

/-! ## Sums -/

/-- A list is added to a number, one element after the other. -/
def sum (size : ℕ) : ℕ → List ℕ → Except Overflow ℕ
  | acc, [] => pure acc
  | acc, w :: ws => do
    let acc ← within size (acc + w)
    sum size acc ws

theorem sum_eq_ok {size acc : ℕ} {ws : List ℕ} {m : ℕ} (hacc : acc < size) :
    sum size acc ws = .ok m ↔ acc + ws.sum < size ∧ m = acc + ws.sum := by
  induction ws generalizing acc with
  | nil =>
    rw [List.sum_nil, Nat.add_zero]
    constructor
    · intro h
      cases h
      exact ⟨hacc, rfl⟩
    · rintro ⟨-, rfl⟩
      rfl
  | cons w ws ih =>
    rw [sum, bind_eq_ok, List.sum_cons, ← Nat.add_assoc]
    constructor
    · rintro ⟨next, hnext, hrest⟩
      obtain ⟨hfits, rfl⟩ := within_eq_ok.mp hnext
      exact (ih hfits).mp hrest
    · intro h
      have hfits : acc + w < size := by omega
      exact ⟨acc + w, within_eq_ok.mpr ⟨hfits, rfl⟩, (ih hfits).mpr h⟩

/-! ## The first of the least -/

/-- One step of the fold: the best so far stays unless the next is smaller. -/
def better (greater : α → α → Except ε Bool) (best next : α) : Except ε α := do
  let replace ← greater best next
  pure (if replace then next else best)

/-- The first of the least elements of a list; `greater` says whether its first argument is the larger. -/
def minBy (greater : α → α → Except ε Bool) : List α → Except ε (Option α)
  | [] => pure none
  | a :: l => do
    let best ← l.foldlM (better greater) a
    pure (some best)

section MinBy

variable {γ : Type} [LinearOrder γ] {key : α → γ} {greater : α → α → Except ε Bool}

/-- The earliest of the least elements of a list. -/
abbrev First (key : α → γ) : List α → α → Prop := Earliest (fun _ => True) key

theorem first_le {l : List α} {a b : α} (h : First key l a) (hb : b ∈ l) : key a ≤ key b := by
  obtain ⟨before, after, rfl, -, hbefore, hafter⟩ := h
  rcases List.mem_append.mp hb with hb | hb
  · exact le_of_lt (hbefore b hb trivial)
  · rcases List.mem_cons.mp hb with rfl | hb
    · exact le_refl _
    · exact hafter b hb trivial

theorem exists_first (key : α → γ) {l : List α} (h : l ≠ []) : ∃ a, First key l a := by
  obtain ⟨a, ha⟩ := List.exists_mem_of_ne_nil l h
  exact exists_earliest_iff.mpr ⟨a, ha, trivial⟩

/-- The earliest of the least, when the list gets one element more. -/
theorem first_concat {l : List α} {best : α} (h : First key l best) (b : α) :
    First key (l ++ [b]) (if key b < key best then b else best) := by
  obtain ⟨before, after, rfl, -, hbefore, hafter⟩ := h
  by_cases hlt : key b < key best
  · rw [if_pos hlt]
    refine ⟨before ++ best :: after, [], rfl, trivial, fun c hc _ => ?_, nofun⟩
    rcases List.mem_append.mp hc with hc | hc
    · exact lt_trans hlt (hbefore c hc trivial)
    · rcases List.mem_cons.mp hc with rfl | hc
      · exact hlt
      · exact lt_of_lt_of_le hlt (hafter c hc trivial)
  · rw [if_neg hlt]
    refine ⟨before, after ++ [b], ?_, trivial, hbefore, fun c hc _ => ?_⟩
    · rw [List.append_assoc, List.cons_append]
    · rcases List.mem_append.mp hc with hc | hc
      · exact hafter c hc trivial
      · obtain rfl := List.mem_singleton.mp hc
        exact le_of_not_gt hlt

/-- What stands in `l` has a result when it is compared with the earliest of the least of what stands before
    it, in `l` and in the list `earlier` in front of it. -/
def Comparable (key : α → γ) (greater : α → α → Except ε Bool) (earlier l : List α) : Prop :=
  ∀ before b after best, l = before ++ b :: after → First key (earlier ++ before) best →
    ∃ r, greater best b = .ok r

theorem comparable_cons {earlier l : List α} {b best : α} (h : First key earlier best) :
    Comparable key greater earlier (b :: l) ↔
      (∃ r, greater best b = .ok r) ∧ Comparable key greater (earlier ++ [b]) l := by
  constructor
  · intro hall
    refine ⟨hall [] b l best rfl ?_, fun before c after best' hl hfirst => ?_⟩
    · rw [List.append_nil]
      exact h
    · refine hall (b :: before) c after best' (congrArg (List.cons b) hl) ?_
      rw [List.append_assoc] at hfirst
      exact hfirst
  · rintro ⟨hhead, htail⟩ before c after best' hl hfirst
    cases before with
    | nil =>
      obtain ⟨rfl, rfl⟩ := List.cons.inj hl
      rw [List.append_nil] at hfirst
      rw [← h.unique hfirst]
      exact hhead
    | cons d before =>
      obtain ⟨rfl, rfl⟩ := List.cons.inj hl
      refine htail before c after best' rfl ?_
      rw [List.append_assoc]
      exact hfirst

/-- The first element is compared with nothing before it. -/
theorem comparable_nil_cons {l : List α} {b : α} :
    Comparable key greater [] (b :: l) ↔ Comparable key greater [b] l := by
  constructor
  · intro hall before c after best hl hfirst
    exact hall (b :: before) c after best (congrArg (List.cons b) hl) hfirst
  · intro hall before c after best hl hfirst
    cases before with
    | nil => exact absurd hfirst.mem List.not_mem_nil
    | cons d before =>
      obtain ⟨rfl, rfl⟩ := List.cons.inj hl
      exact hall before c after best rfl hfirst

variable (hgreater : ∀ a b r, greater a b = .ok r → (r = true ↔ key b < key a))
include hgreater

/-- The fold, from the best of what stands before. -/
theorem foldlM_better_eq_ok {earlier l : List α} {best a : α} (h : First key earlier best) :
    l.foldlM (better greater) best = .ok a ↔
      First key (earlier ++ l) a ∧ Comparable key greater earlier l := by
  induction l generalizing earlier best with
  | nil =>
    rw [List.append_nil]
    constructor
    · intro hok
      cases hok
      refine ⟨h, fun before b after best' hl => ?_⟩
      cases before with
      | nil => cases hl
      | cons c before => cases hl
    · rintro ⟨hfirst, -⟩
      rw [h.unique hfirst]
      rfl
  | cons b l ih =>
    have hnext := first_concat h b
    rw [List.foldlM_cons, bind_eq_ok, comparable_cons h]
    have hstep : ∀ next, better greater best b = .ok next ↔
        (∃ r, greater best b = .ok r) ∧ next = if key b < key best then b else best := by
      intro next
      rw [better, bind_eq_ok]
      constructor
      · rintro ⟨r, hr, hpure⟩
        cases hpure
        exact ⟨⟨r, hr⟩, if_congr (hgreater best b r hr) rfl rfl⟩
      · rintro ⟨⟨r, hr⟩, rfl⟩
        exact ⟨r, hr, congrArg Except.ok (if_congr (hgreater best b r hr) rfl rfl)⟩
    have hlist : earlier ++ b :: l = earlier ++ [b] ++ l := by rw [List.append_assoc, List.singleton_append]
    rw [hlist]
    constructor
    · rintro ⟨next, hbetter, hrest⟩
      obtain ⟨hcmp, rfl⟩ := (hstep next).mp hbetter
      obtain ⟨hfirst, hall⟩ := (ih hnext).mp hrest
      exact ⟨hfirst, hcmp, hall⟩
    · rintro ⟨hfirst, hcmp, hall⟩
      exact ⟨_, (hstep _).mpr ⟨hcmp, rfl⟩, (ih hnext).mpr ⟨hfirst, hall⟩⟩

/-- **The first of the least.**  It is found exactly when every comparison on the way has a result. -/
theorem minBy_eq_ok {l : List α} {a : α} :
    minBy greater l = .ok (some a) ↔ First key l a ∧ Comparable key greater [] l := by
  cases l with
  | nil =>
    refine iff_of_false (fun h => ?_) fun h => absurd h.1.mem List.not_mem_nil
    cases h
  | cons b l =>
    have hb : First key [b] b := ⟨[], [], rfl, trivial, nofun, nofun⟩
    rw [minBy, bind_eq_ok, comparable_nil_cons]
    constructor
    · rintro ⟨best, hfold, hpure⟩
      cases hpure
      exact (foldlM_better_eq_ok hgreater hb).mp hfold
    · intro h
      exact ⟨a, (foldlM_better_eq_ok hgreater hb).mpr h, rfl⟩

end MinBy

end Overflow
