/-
  WINDOWS of the day: from a time of the day to a time of the day, over midnight when the first is the later one.

  * `within`, `withinClosed` — the test of one time, with the end of the window left out or taken in.  Written with
    the four comparisons that decide it (`within_iff`, `withinClosed_iff`), two tests are compared without going
    into cases.
  * `nights`, `nightsClosed` — a window over midnight as a set of MOMENTS, a day and a time of that day in
    lexicographic order: it lasts from `start` on a listed day to `stop` on the following one.

  A test of the day beside a test of the time takes the hours after midnight for the wrong day.
  `within_iff_mem_nights` says when that makes no difference.
-/
import Mathlib.Data.Prod.Basic
import Mathlib.Data.Set.Defs
import Mathlib.Order.Lattice
import Mathlib.Tactic.Tauto

namespace Windows

/-! ## What two tests have in common -/

/-- A window is left before it is entered exactly when it passes midnight. -/
theorem through_iff {order entered left : Prop} [Decidable order] (hday : order → left → entered)
    (hnight : ¬ order → entered → left) :
    (if order then entered ∧ ¬ left else entered ∨ ¬ left) ↔ ((entered ↔ left) ↔ ¬ order) := by
  split
  · rename_i h
    have := hday h
    tauto
  · rename_i h
    have := hnight h
    tauto

section Within

variable {τ : Type*} [LinearOrder τ] (start stop now : τ)

/-- The time is in the window, which ends before `stop`. -/
def within : Prop := if start ≤ stop then start ≤ now ∧ now < stop else start ≤ now ∨ now < stop

/-- The time is in the window, which ends with `stop`. -/
def withinClosed : Prop := if start ≤ stop then start ≤ now ∧ now ≤ stop else start ≤ now ∨ now ≤ stop

variable {start stop now}

theorem within_iff : within start stop now ↔ ((start ≤ now ↔ stop ≤ now) ↔ stop < start) := by
  rw [within, ← (not_le : ¬ stop ≤ now ↔ now < stop), ← (not_le : ¬ start ≤ stop ↔ stop < start)]
  refine through_iff (fun h hleft => h.trans hleft) fun h hentered => ?_
  exact (not_le.mp h).le.trans hentered

theorem withinClosed_iff : withinClosed start stop now ↔ ((start ≤ now ↔ stop < now) ↔ stop < start) := by
  rw [withinClosed, ← (not_lt : ¬ stop < now ↔ now ≤ stop), ← (not_le : ¬ start ≤ stop ↔ stop < start)]
  refine through_iff (fun h hleft => h.trans hleft.le) fun h hentered => ?_
  exact (not_le.mp h).trans_le hentered

end Within

/-! ## Nights -/

section Nights

variable {τ : Type*} [LinearOrder τ]

variable (listed : Int → Prop) (start stop : τ)

/-- Each from `start` on a listed day until `stop` on the following one. -/
def nights : Set (Int × τ) :=
  fun m => ∃ day, listed day ∧ Prod.Lex (· < ·) (· ≤ ·) (day, start) m ∧ Prod.Lex (· < ·) (· < ·) m (day + 1, stop)

/-- Each with its end. -/
def nightsClosed : Set (Int × τ) :=
  fun m => ∃ day, listed day ∧ Prod.Lex (· < ·) (· ≤ ·) (day, start) m ∧ Prod.Lex (· < ·) (· ≤ ·) m (day + 1, stop)

variable {listed start stop} {today : Int} {now : τ}

/-- **A night is its evening and its morning**: in it, it is the day on which it begins, or the following one. -/
theorem in_night_iff {late early : Prop} :
    (∃ day, listed day ∧ (day < today ∨ day = today ∧ late) ∧ (today < day + 1 ∨ today = day + 1 ∧ early)) ↔
      (listed today ∧ late) ∨ (listed (today - 1) ∧ early) := by
  constructor
  · rintro ⟨day, hlisted, hbegun | ⟨rfl, hlate⟩, hends | ⟨hnext, hearly⟩⟩
    · omega
    · have hday : day = today - 1 := by omega
      exact Or.inr ⟨hday ▸ hlisted, hearly⟩
    · exact Or.inl ⟨hlisted, hlate⟩
    · omega
  · rintro (⟨hlisted, hlate⟩ | ⟨hlisted, hearly⟩)
    · exact ⟨today, hlisted, Or.inr ⟨rfl, hlate⟩, Or.inl (by omega)⟩
    · exact ⟨today - 1, hlisted, Or.inl (by omega), Or.inr ⟨by omega, hearly⟩⟩

theorem mem_nights_iff : (today, now) ∈ nights listed start stop ↔
    (listed today ∧ start ≤ now) ∨ (listed (today - 1) ∧ now < stop) := by
  rw [← in_night_iff]
  refine exists_congr fun day => and_congr_right fun _ => ?_
  rw [Prod.lex_def, Prod.lex_def]

theorem mem_nightsClosed_iff : (today, now) ∈ nightsClosed listed start stop ↔
    (listed today ∧ start ≤ now) ∨ (listed (today - 1) ∧ now ≤ stop) := by
  rw [← in_night_iff]
  refine exists_congr fun day => and_congr_right fun _ => ?_
  rw [Prod.lex_def, Prod.lex_def]

/-- Asked about today in the morning, a night is taken for the wrong one. -/
theorem evening_or_morning_iff {today yesterday late early : Prop} (h : early → ¬ late) :
    (today ∧ (late ∨ early) ↔ (today ∧ late) ∨ (yesterday ∧ early)) ↔ (early → (today ↔ yesterday)) := by
  tauto

/-- **A test of the day beside a test of the time** is right about the nights exactly when, before the end of the
    window, today and yesterday are both listed, or neither is. -/
theorem within_iff_mem_nights (listed : Int → Prop) (h : stop < start) :
    (listed today ∧ within start stop now ↔ (today, now) ∈ nights listed start stop) ↔
      (now < stop → (listed today ↔ listed (today - 1))) := by
  rw [mem_nights_iff, within, if_neg (not_le.mpr h)]
  exact evening_or_morning_iff fun hearly => not_le.mpr (hearly.trans h)

theorem withinClosed_iff_mem_nightsClosed (listed : Int → Prop) (h : stop < start) :
    (listed today ∧ withinClosed start stop now ↔ (today, now) ∈ nightsClosed listed start stop) ↔
      (now ≤ stop → (listed today ↔ listed (today - 1))) := by
  rw [mem_nightsClosed_iff, withinClosed, if_neg (not_le.mpr h)]
  exact evening_or_morning_iff fun hearly => not_le.mpr (hearly.trans_lt h)

end Nights

end Windows
