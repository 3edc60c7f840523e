/-
  TWO CHOICES: the two positions of `PowerOfTwoChoices::select` are never the same.

  The second position is the first, moved on by one more than a number below `n - 1`: by at least one place and
  by less than a whole turn.  So among two endpoints or more the choice is a choice, and the busiest of all,
  which loses against every other, is never made.
-/
import Smppd.Cluster.Balancers

namespace Smppd.Cluster

variable {α : Type}

namespace PowerOfTwoChoices

/-! ## The positions -/

theorem first_lt {n : Nat} (hn : 2 ≤ n) (r : Nat) : first r n < n := Nat.mod_lt r (by omega)

theorem second_lt {n : Nat} (hn : 2 ≤ n) (r i : Nat) : second r n i < n := Nat.mod_lt _ (by omega)

/-- What the second position is reduced from stays below twice the length. -/
theorem sum_lt {n i : Nat} (hi : i < n) (hn : 2 ≤ n) (r : Nat) : r % (n - 1) + i + 1 < 2 * n := by
  have hr : r % (n - 1) < n - 1 := Nat.mod_lt r (by omega)
  omega

theorem second_ne {n i : Nat} (hi : i < n) (hn : 2 ≤ n) (r : Nat) : second r n i ≠ i := by
  have hr : r % (n - 1) < n - 1 := Nat.mod_lt r (by omega)
  have hsum := sum_lt hi hn r
  unfold second
  intro h
  rcases Nat.lt_or_ge (r % (n - 1) + i + 1) n with hlt | hge
  · rw [Nat.mod_eq_of_lt hlt] at h
    omega
  · -- once over the end, and not as far as it started
    rw [Nat.mod_eq_sub_mod hge, Nat.mod_eq_of_lt (by omega)] at h
    omega

/-- The positions of a call are in range and distinct. -/
theorem positions_spec (self : PowerOfTwoChoices) {n : Nat} (hn : 2 ≤ n) :
    (self.positions n).1.1 < n ∧ (self.positions n).1.2 < n ∧
      (self.positions n).1.1 ≠ (self.positions n).1.2 := by
  have hfirst := first_lt hn self.random.1.toNat
  exact ⟨hfirst, second_lt hn _ _, (second_ne hfirst hn _).symm⟩

/-! ## The choice -/

/-- Two of the endpoints are compared, and one that has no more connections than the other is returned. -/
theorem select_eq (self : PowerOfTwoChoices) (active : α → UInt64) {endpoints : List α}
    (hn : 2 ≤ endpoints.length) : ∃ a b, endpoints[(self.positions endpoints.length).1.1]? = some a ∧
      endpoints[(self.positions endpoints.length).1.2]? = some b ∧
      self.select active endpoints =
        (some (if active a ≤ active b then a else b), (self.positions endpoints.length).2) := by
  obtain ⟨hi, hj, -⟩ := self.positions_spec hn
  refine ⟨_, _, List.getElem?_eq_getElem hi, List.getElem?_eq_getElem hj, ?_⟩
  rcases endpoints with _ | ⟨ep, _ | ⟨ep', endpoints⟩⟩
  · exact absurd hn (Nat.not_succ_le_zero 1)
  · exact absurd hn (Nat.not_succ_le_self 1)
  · unfold select
    simp only [List.getElem?_eq_getElem hi, List.getElem?_eq_getElem hj, Option.bind_eq_bind,
      Option.bind_some]
    split
    · rfl
    · rfl

/-- **Two choices are two.**  Whatever the counter, a call compares two endpoints at distinct places of the
    list and returns one that has the smaller count of the two; an endpoint with more connections than every
    other is not returned. -/
theorem select_compares_two (self : PowerOfTwoChoices) (active : α → UInt64) (endpoints : List α)
    (hn : 2 ≤ endpoints.length) : ∃ i j a b chosen, (self.positions endpoints.length).1 = (i, j) ∧ i ≠ j ∧
      endpoints[i]? = some a ∧ endpoints[j]? = some b ∧ (self.select active endpoints).1 = some chosen ∧
      (chosen = a ∨ chosen = b) ∧ active chosen ≤ active a ∧ active chosen ≤ active b ∧
      ∀ (k : Nat) busiest, endpoints[k]? = some busiest →
        (∀ (l : Nat) e, l ≠ k → endpoints[l]? = some e → active e < active busiest) → chosen ≠ busiest := by
  obtain ⟨-, -, hne⟩ := self.positions_spec hn
  obtain ⟨a, b, ha, hb, hselect⟩ := self.select_eq active hn
  have hsmaller : ∀ chosen, chosen = (if active a ≤ active b then a else b) →
      (chosen = a ∨ chosen = b) ∧ active chosen ≤ active a ∧ active chosen ≤ active b := by
    rintro chosen rfl
    by_cases h : active a ≤ active b
    · rw [if_pos h]
      exact ⟨Or.inl rfl, UInt64.le_refl _, h⟩
    · rw [if_neg h]
      exact ⟨Or.inr rfl, UInt64.le_of_lt (UInt64.not_le.mp h), UInt64.le_refl _⟩
  obtain ⟨hone, hlea, hleb⟩ := hsmaller _ rfl
  refine ⟨_, _, a, b, _, rfl, hne, ha, hb, congrArg Prod.fst hselect, hone, hlea, hleb, ?_⟩
  intro k busiest hbusiest hmost heq
  rw [heq] at hlea hleb
  -- one of the two is not the busiest, and has fewer
  by_cases hk : (self.positions endpoints.length).1.1 = k
  · have hother : (self.positions endpoints.length).1.2 ≠ k := fun hsame => hne (hk.trans hsame.symm)
    exact absurd hleb (UInt64.not_le.mpr (hmost _ b hother hb))
  · exact absurd hlea (UInt64.not_le.mpr (hmost _ a hk ha))

/-- Three endpoints named by their counts, the first of them the busiest. -/
theorem select_compares_two_of_three : (PowerOfTwoChoices.select {} id [9, 5, 7]).1 ≠ some (9 : UInt64) := by
  obtain ⟨i, j, a, b, chosen, -, -, -, -, hchosen, -, -, -, hbusiest⟩ :=
    select_compares_two {} id [(9 : UInt64), 5, 7] (by decide)
  have hmost : ∀ l e, l ≠ 0 → ([9, 5, 7] : List UInt64)[l]? = some e → id e < id 9 := by
    intro l e hl he
    match l with
    | 0 => exact absurd rfl hl
    | 1 => cases he; decide
    | 2 => cases he; decide
    | l + 3 => cases he
  rw [hchosen]
  exact fun h => hbusiest 0 9 rfl hmost (Option.some.inj h)

end PowerOfTwoChoices

end Smppd.Cluster
