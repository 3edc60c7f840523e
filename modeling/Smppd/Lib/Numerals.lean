/-
  DECIMAL NUMERALS, of any length.

  `Numeral digits n` says what a list of digits means without a loop: one digit, or a numeral and one more digit
  at its end.  A parser goes through the list from the left and accumulates, `value digits`; `numeral_iff` is the
  bridge between the two, by induction on the end of the list.

  `Signed` is a numeral which may have a plus sign in front of it.
-/
import Mathlib.Data.List.Basic
import Mathlib.Data.List.Induction

namespace Numerals

/-- What a digit adds. -/
def digit (c : Char) : Nat := c.toNat - 48

/-- **A list of digits and the number it means.** -/
inductive Numeral : List Char → Nat → Prop
  | single {c : Char} (hdigit : c.isDigit) : Numeral [c] (digit c)
  | more {digits : List Char} {n : Nat} {c : Char} (hfront : Numeral digits n) (hdigit : c.isDigit) :
      Numeral (digits ++ [c]) (n * 10 + digit c)

/-- The number, accumulated from the left. -/
def value (digits : List Char) : Nat := digits.foldl (fun n c => n * 10 + digit c) 0

theorem value_append_single (digits : List Char) (c : Char) : value (digits ++ [c]) = value digits * 10 + digit c := by
  rw [value, List.foldl_append]
  rfl

theorem value_single (c : Char) : value [c] = digit c := by
  show 0 * 10 + digit c = digit c
  omega

/-- **The loop reads what the numeral means.** -/
theorem numeral_iff {digits : List Char} {n : Nat} :
    Numeral digits n ↔ digits ≠ [] ∧ (∀ c ∈ digits, c.isDigit) ∧ value digits = n := by
  constructor
  · intro hnumeral
    induction hnumeral with
    | single hdigit => exact ⟨by simp, by simpa using hdigit, value_single _⟩
    | more hfront hdigit ih =>
      obtain ⟨-, hdigits, hvalue⟩ := ih
      refine ⟨by simp, ?_, by rw [value_append_single, hvalue]⟩
      intro c hc
      rcases List.mem_append.mp hc with hmem | hlast
      · exact hdigits c hmem
      · rw [List.mem_singleton.mp hlast]
        exact hdigit
  · rintro ⟨hne, hdigits, rfl⟩
    induction digits using List.reverseRecOn with
    | nil => exact absurd rfl hne
    | append_singleton digits c ih =>
      have hlast : c.isDigit := hdigits c (by simp)
      rcases eq_or_ne digits [] with rfl | hfront
      · rw [List.nil_append, value_single]
        exact .single hlast
      · rw [value_append_single]
        exact .more (ih hfront fun d hd => hdigits d (by simp [hd])) hlast

/-- A numeral means one number. -/
theorem Numeral.unique {digits : List Char} {n m : Nat} (hn : Numeral digits n) (hm : Numeral digits m) : n = m :=
  (numeral_iff.mp hn).2.2.symm.trans (numeral_iff.mp hm).2.2

/-- What is no digit is not in it. -/
theorem Numeral.notMem {digits : List Char} {n : Nat} (h : Numeral digits n) {c : Char} (hc : c.isDigit = false) :
    c ∉ digits := by
  intro hmem
  have hdigit := (numeral_iff.mp h).2.1 c hmem
  rw [hc] at hdigit
  exact Bool.false_ne_true hdigit

/-- A numeral, with a plus sign in front of it or not. -/
def Signed (text : List Char) (n : Nat) : Prop := Numeral text n ∨ ∃ digits, text = '+' :: digits ∧ Numeral digits n

/-- The digits of a text: what is behind its plus sign. -/
def unsigned : List Char → List Char
  | '+' :: rest => rest
  | l => l

theorem unsigned_of_ne {text : List Char} (h : ∀ rest, text ≠ '+' :: rest) : unsigned text = text := by
  unfold unsigned
  split
  · rename_i rest
    exact absurd rfl (h rest)
  · rfl

theorem signed_iff {text : List Char} {n : Nat} : Signed text n ↔ Numeral (unsigned text) n := by
  by_cases hsign : ∃ rest, text = '+' :: rest
  · obtain ⟨rest, rfl⟩ := hsign
    constructor
    · rintro (hnumeral | ⟨digits, heq, hnumeral⟩)
      · exact absurd List.mem_cons_self (hnumeral.notMem (by decide))
      · obtain rfl := List.tail_eq_of_cons_eq heq
        exact hnumeral
    · intro hnumeral
      exact Or.inr ⟨rest, rfl, hnumeral⟩
  · have hbare : unsigned text = text := unsigned_of_ne fun rest heq => hsign ⟨rest, heq⟩
    rw [hbare]
    refine or_iff_left ?_
    rintro ⟨digits, heq, -⟩
    exact hsign ⟨digits, heq⟩

theorem Signed.unique {text : List Char} {n m : Nat} (hn : Signed text n) (hm : Signed text m) : n = m :=
  (signed_iff.mp hn).unique (signed_iff.mp hm)

/-- What is neither a digit nor a plus sign is not in it. -/
theorem Signed.notMem {text : List Char} {n : Nat} (h : Signed text n) {c : Char} (hc : c.isDigit = false)
    (hplus : c ≠ '+') : c ∉ text := by
  rcases h with hnumeral | ⟨digits, rfl, hnumeral⟩
  · exact hnumeral.notMem hc
  · intro hmem
    rcases List.mem_cons.mp hmem with heq | hdigits
    · exact hplus heq
    · exact hnumeral.notMem hc hdigits

end Numerals
