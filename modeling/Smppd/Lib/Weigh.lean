/-
  The WEIGHT of a table: the sum of a weight over its values, as a program that bounds its memory keeps it.

  The weight is a function of what is found under the keys (`weigh_congr`), so one equation about erasing
  (`weigh_erase`) gives the others.  A running total is kept in `UInt64` with wrapping addition and
  subtraction; `toNat_sub_ofNat` and `toNat_add_ofNat` say when it stays exact.
-/
import Mathlib.Algebra.Order.BigOperators.Group.List
import Mathlib.Algebra.Order.Group.Nat
import Mathlib.Data.UInt
import Smppd.Lib.Table

namespace Table

variable {κ ν : Type*}

/-- The total weight of the values of a table. -/
def weigh (w : ν → Nat) (t : Tbl κ ν) : Nat := (t.entries.map fun e => w e.2).sum

theorem weigh_mapVals (w : ν → Nat) (f : κ → ν → ν) (t : Tbl κ ν) :
    weigh w (mapVals f t) = (t.entries.map fun e => w (f e.1 e.2)).sum := by
  unfold weigh mapVals
  rw [List.map_map]
  rfl

/-- What is left alone weighs the same, when the change can only add. -/
theorem weigh_mapVals_eq_iff {w : ν → Nat} {f : κ → ν → ν} {t : Tbl κ ν} (h : ∀ k v, w v ≤ w (f k v)) :
    weigh w (mapVals f t) = weigh w t ↔ ∀ e ∈ t.entries, w (f e.1 e.2) = w e.2 := by
  rw [weigh_mapVals]
  unfold weigh
  induction t.entries with
  | nil => exact iff_of_true rfl fun e he => absurd he List.not_mem_nil
  | cons e l ih =>
    have hhead := h e.1 e.2
    have htail : (l.map fun e => w e.2).sum ≤ (l.map fun e => w (f e.1 e.2)).sum :=
      List.sum_le_sum fun e _ => h e.1 e.2
    rw [List.map_cons, List.map_cons, List.sum_cons, List.sum_cons, List.forall_mem_cons, ← ih]
    omega

variable [DecidableEq κ]

/-- Tables with the same lookups weigh the same. -/
theorem weigh_congr {w : ν → Nat} {t t' : Tbl κ ν} (h : ∀ k, t.lookup k = t'.lookup k) :
    weigh w t = weigh w t' := by
  have hperm : t.entries.Perm t'.entries := by
    refine List.lookup_ext t.nodupKeys t'.nodupKeys fun k v => ?_
    show v ∈ t.lookup k ↔ v ∈ t'.lookup k
    rw [h]
  exact (hperm.map _).sum_nat

theorem sum_kerase (w : ν → Nat) (k : κ) (l : List (Sigma fun _ : κ => ν)) :
    (l.map fun e => w e.2).sum =
      ((l.kerase k).map fun e => w e.2).sum + ((l.dlookup k).map w).getD 0 := by
  induction l with
  | nil => rfl
  | cons e l ih =>
    obtain ⟨k', v⟩ := e
    by_cases h : k = k'
    · subst h
      have hrest : ((⟨k, v⟩ : Sigma fun _ : κ => ν) :: l).kerase k = l := List.kerase_cons_eq rfl
      rw [hrest, List.dlookup_cons_eq, List.map_cons, List.sum_cons, Nat.add_comm]
      rfl
    · have hrest : ((⟨k', v⟩ : Sigma fun _ : κ => ν) :: l).kerase k = ⟨k', v⟩ :: l.kerase k :=
        List.kerase_cons_ne h
      rw [hrest, List.dlookup_cons_ne _ _ h, List.map_cons, List.map_cons, List.sum_cons, List.sum_cons, ih,
        Nat.add_assoc]

/-- A table weighs what it weighs without a key, and what is found under the key. -/
theorem weigh_erase (w : ν → Nat) (k : κ) (t : Tbl κ ν) :
    weigh w t = weigh w (t.erase k) + ((t.lookup k).map w).getD 0 :=
  sum_kerase w k t.entries

theorem weigh_erase_of_lookup {w : ν → Nat} {k : κ} {t : Tbl κ ν} {v : ν} (h : t.lookup k = some v) :
    weigh w t = weigh w (t.erase k) + w v := by
  rw [weigh_erase w k t, h]
  rfl

theorem weigh_insert (w : ν → Nat) (k : κ) (v : ν) (t : Tbl κ ν) :
    weigh w (t.insert k v) = weigh w (t.erase k) + w v := by
  rw [weigh_erase_of_lookup (AList.lookup_insert t)]
  congr 1
  refine weigh_congr fun k' => ?_
  by_cases h : k' = k
  · rw [h, AList.lookup_erase, AList.lookup_erase]
  · rw [AList.lookup_erase_ne h, AList.lookup_erase_ne h, AList.lookup_insert_ne h]

theorem weigh_modify {w : ν → Nat} {k : κ} {f : ν → ν} {t : Tbl κ ν} {v : ν} (h : t.lookup k = some v) :
    weigh w (modify k f t) = weigh w (t.erase k) + w (f v) := by
  have hmodified : (modify k f t).lookup k = some (f v) := by
    rw [lookup_modify_self, h, Option.map_some]
  rw [weigh_erase_of_lookup hmodified]
  congr 1
  refine weigh_congr fun k' => ?_
  by_cases hk : k' = k
  · rw [hk, AList.lookup_erase, AList.lookup_erase]
  · rw [AList.lookup_erase_ne hk, AList.lookup_erase_ne hk, lookup_modify_ne f t hk]

/-! ## A running total -/

/-- Taking off what is there. -/
theorem toNat_sub_ofNat {a : UInt64} {n k : Nat} (h : a.toNat = n + k) : (a - UInt64.ofNat k).toNat = n := by
  have hk : k < 2 ^ 64 := by
    have := a.toNat_lt
    omega
  have hle : UInt64.ofNat k ≤ a := by
    rw [UInt64.le_iff_toNat_le, UInt64.toNat_ofNat_of_lt' hk]
    omega
  rw [UInt64.toNat_sub_of_le _ _ hle, UInt64.toNat_ofNat_of_lt' hk]
  omega

/-- Putting on more, as long as there is room. -/
theorem toNat_add_ofNat {a : UInt64} {n : Nat} (h : a.toNat = n) (k : Nat) :
    (a + UInt64.ofNat k).toNat = (n + k) % 2 ^ 64 := by
  rw [UInt64.toNat_add, h, UInt64.toNat_ofNat', Nat.add_mod_mod]

end Table
