/-
  BINARY SEARCH by halving a size, as the standard library of the source's language does it.

  The loop keeps a `base` and a `size`: what lies from `base + size` on is greater than the target, and what
  lies at `base` is not, unless `base` is still zero.  It reads one element in each round and moves `base` or
  leaves it (`halve_spec`).  `search_spec` is what the documentation promises: an index of an element that is
  equal to the target, or else the index at which the target would keep the list sorted.

  A search that starts over at the end finds the next point on a ring (`next_atOrAfter`), and that point is the
  same on a ring from which others have been taken (`Next.of_subset`).
-/
import Mathlib.Order.Compare
import Mathlib.Order.Lattice
import Mathlib.Data.List.Basic

namespace BinarySearch

/-- The loop; `cmp i` compares the element at `i` with the target. -/
def halve (cmp : ℕ → Ordering) (base size : ℕ) : ℕ :=
  if 1 < size then
    let half := size / 2
    let mid := base + half
    halve cmp (if cmp mid = .gt then base else mid) (size - half)
  else base
termination_by size

/-- The search among `n` elements: `.ok` is an index where the target is, `.error` one where it would be. -/
def search (cmp : ℕ → Ordering) (n : ℕ) : Except ℕ ℕ :=
  if n = 0 then .error 0
  else
    let base := halve cmp 0 n
    match cmp base with
    | .eq => .ok base
    | .lt => .error (base + 1)
    | .gt => .error base

section Sorted

variable {γ : Type*} [LinearOrder γ] {cmp : ℕ → Ordering} {key : ℕ → γ} {target : γ} {n : ℕ}
  (hcmp : ∀ i < n, cmp i = compare (key i) target) (hsorted : ∀ i j, i ≤ j → j < n → key i ≤ key j)
include hcmp hsorted

/-- **The loop.**  It ends at the last element that is not greater than the target, or at the first if there
    is none. -/
theorem halve_spec (base size : ℕ) (hsize : 1 ≤ size) (hfits : base + size ≤ n)
    (hhigh : ∀ j, base + size ≤ j → j < n → target < key j) (hlow : base = 0 ∨ key base ≤ target) :
    halve cmp base size < n ∧ (∀ j, halve cmp base size < j → j < n → target < key j) ∧
      (halve cmp base size = 0 ∨ key (halve cmp base size) ≤ target) := by
  induction base, size using halve.induct cmp with
  | case1 base size hmore half mid ih =>
    have hmid : mid = base + size / 2 := rfl
    have hhalf : half = size / 2 := rfl
    have hstep : halve cmp base size = halve cmp (if cmp mid = .gt then base else mid) (size - half) := by
      rw [halve, if_pos hmore]
    rw [hstep]
    by_cases hgt : cmp mid = .gt
    · -- the element in the middle is greater, and so is all behind it
      have htarget : target < key mid := by
        rw [hcmp mid (by omega)] at hgt
        exact compare_gt_iff_gt.mp hgt
      rw [dif_pos hgt] at ih
      rw [if_pos hgt]
      refine ih (by omega) (by omega) (fun j hj hjn => ?_) hlow
      exact lt_of_lt_of_le htarget (hsorted mid j (by omega) hjn)
    · -- it is not, and the search goes on from there
      have htarget : key mid ≤ target := by
        rw [hcmp mid (by omega)] at hgt
        exact not_lt.mp (mt compare_gt_iff_gt.mpr hgt)
      rw [dif_neg hgt] at ih
      rw [if_neg hgt]
      refine ih (by omega) (by omega) (fun j hj hjn => ?_) (Or.inr htarget)
      exact hhigh j (by omega) hjn
  | case2 base size hone =>
    rw [halve, if_neg hone]
    have hlast : size = 1 := by omega
    refine ⟨by omega, fun j hj hjn => ?_, hlow⟩
    exact hhigh j (by omega) hjn

/-- **The search.** -/
theorem search_spec : match search cmp n with
    | .ok i => i < n ∧ key i = target
    | .error i => i ≤ n ∧ (∀ j < i, key j < target) ∧ ∀ j, i ≤ j → j < n → target < key j := by
  unfold search
  by_cases hempty : n = 0
  · rw [if_pos hempty]
    refine ⟨Nat.zero_le n, fun j hj => absurd hj (Nat.not_lt_zero j), fun j _ hjn => ?_⟩
    omega
  · rw [if_neg hempty]
    obtain ⟨hlt, hhigh, hlow⟩ := halve_spec hcmp hsorted 0 n (by omega) (by omega)
      (fun j hj hjn => by omega) (Or.inl rfl)
    have hbase := hcmp _ hlt
    show match (match cmp (halve cmp 0 n) with
      | .eq => Except.ok (halve cmp 0 n)
      | .lt => .error (halve cmp 0 n + 1)
      | .gt => .error (halve cmp 0 n)) with
    | .ok i => i < n ∧ key i = target
    | .error i => i ≤ n ∧ (∀ j < i, key j < target) ∧ ∀ j, i ≤ j → j < n → target < key j
    cases hfound : cmp (halve cmp 0 n) with
    | eq => exact ⟨hlt, compare_eq_iff_eq.mp (hbase.symm.trans hfound)⟩
    | lt =>
      have hless : key (halve cmp 0 n) < target := compare_lt_iff_lt.mp (hbase.symm.trans hfound)
      refine ⟨hlt, fun j hj => ?_, fun j hj hjn => hhigh j hj hjn⟩
      exact lt_of_le_of_lt (hsorted j _ (by omega) hlt) hless
    | gt =>
      -- only the first element can be greater here
      have hgreater : target < key (halve cmp 0 n) := compare_gt_iff_gt.mp (hbase.symm.trans hfound)
      have hzero : halve cmp 0 n = 0 := hlow.resolve_right (not_le.mpr hgreater)
      refine ⟨Nat.le_of_lt hlt, fun j hj => ?_, fun j _ hjn => ?_⟩
      · omega
      · exact lt_of_lt_of_le hgreater (hsorted _ j (by omega) hjn)

end Sorted

/-- The search in a list; `cmp` compares an element with the target. -/
def searchBy {α : Type*} (cmp : α → Ordering) (l : List α) : Except ℕ ℕ :=
  search (fun i => (l[i]?.map cmp).getD .gt) l.length

/-! ## On a ring -/

/-- The index that a search leads to when it starts over at the end of the list. -/
def atOrAfter {α : Type*} (cmp : α → Ordering) (l : List α) : ℕ :=
  match searchBy cmp l with
  | .ok i => i
  | .error i => if l.length ≤ i then 0 else i

section Ring

variable {α γ : Type*} [LinearOrder γ]

/-- The point that comes next from `k` on: the least that is not below `k`, or the least of all if all are. -/
def Next (points : List γ) (k p : γ) : Prop :=
  p ∈ points ∧ ((k ≤ p ∧ ∀ q ∈ points, k ≤ q → p ≤ q) ∨ ((∀ q ∈ points, q < k) ∧ ∀ q ∈ points, p ≤ q))

theorem Next.unique {points : List γ} {k p p' : γ} (h : Next points k p) (h' : Next points k p') : p = p' := by
  obtain ⟨hp, ⟨hk, hleast⟩ | ⟨hall, hleast⟩⟩ := h
  · obtain ⟨hp', ⟨hk', hleast'⟩ | ⟨hall', -⟩⟩ := h'
    · exact le_antisymm (hleast p' hp' hk') (hleast' p hp hk)
    · exact absurd (hall' p hp) (not_lt.mpr hk)
  · obtain ⟨hp', ⟨hk', -⟩ | ⟨-, hleast'⟩⟩ := h'
    · exact absurd (hall p' hp') (not_lt.mpr hk')
    · exact le_antisymm (hleast p' hp') (hleast' p hp)

/-- What comes next still does when other points are taken away. -/
theorem Next.of_subset {points others : List γ} {k p : γ} (h : Next points k p)
    (hsub : ∀ q ∈ others, q ∈ points) (hp : p ∈ others) : Next others k p := by
  obtain ⟨-, ⟨hk, hleast⟩ | ⟨hall, hleast⟩⟩ := h
  · exact ⟨hp, Or.inl ⟨hk, fun q hq => hleast q (hsub q hq)⟩⟩
  · exact ⟨hp, Or.inr ⟨fun q hq => hall q (hsub q hq), fun q hq => hleast q (hsub q hq)⟩⟩

/-- **The search on a ring** finds what comes next. -/
theorem next_atOrAfter {key : α → γ} {target : γ} {cmp : α → Ordering} {l : List α}
    (hcmp : ∀ a, cmp a = compare (key a) target) (hsorted : l.Pairwise fun a b => key a ≤ key b) (hl : l ≠ []) :
    ∃ a, l[atOrAfter cmp l]? = some a ∧ Next (l.map key) target (key a) := by
  have hpos : 0 < l.length := List.length_pos_of_ne_nil hl
  -- the elements as a function of their index
  let at' : ℕ → γ := fun i => key (l[i]?.getD (l.head hl))
  have hat : ∀ i (hi : i < l.length), at' i = key l[i] := by
    intro i hi
    show key (l[i]?.getD (l.head hl)) = key l[i]
    rw [List.getElem?_eq_getElem hi, Option.getD_some]
  have hcmp' : ∀ i < l.length, (l[i]?.map cmp).getD .gt = compare (at' i) target := by
    intro i hi
    rw [hat i hi, List.getElem?_eq_getElem hi, Option.map_some, Option.getD_some, hcmp]
  have hsorted' : ∀ i j, i ≤ j → j < l.length → at' i ≤ at' j := by
    intro i j hij hj
    rw [hat i (by omega), hat j hj]
    rcases Nat.eq_or_lt_of_le hij with rfl | hlt
    · exact le_refl _
    · exact List.pairwise_iff_getElem.mp hsorted i j (by omega) hj hlt
  have hmem : ∀ q ∈ l.map key, ∃ i, i < l.length ∧ at' i = q := by
    intro q hq
    obtain ⟨a, ha, rfl⟩ := List.mem_map.mp hq
    obtain ⟨i, hi, rfl⟩ := List.mem_iff_getElem.mp ha
    exact ⟨i, hi, hat i hi⟩
  have hspec := search_spec hcmp' hsorted'
  have hfound : ∀ i (hi : i < l.length), key l[i] ∈ l.map key := fun i hi =>
    List.mem_map_of_mem (List.getElem_mem hi)
  unfold atOrAfter searchBy
  cases hsearch : search (fun i => (l[i]?.map cmp).getD .gt) l.length with
  | ok i =>
    rw [hsearch] at hspec
    obtain ⟨hi, hkey⟩ := hspec
    rw [hat i hi] at hkey
    refine ⟨l[i], List.getElem?_eq_getElem hi, hfound i hi, Or.inl ⟨le_of_eq hkey.symm, fun q _ hq => ?_⟩⟩
    rw [hkey]
    exact hq
  | error i =>
    rw [hsearch] at hspec
    obtain ⟨-, hbelow, habove⟩ := hspec
    by_cases hend : l.length ≤ i
    · -- all are below the target, and the first is the least
      have hfirst : l[if l.length ≤ i then 0 else i]? = some l[0] := by
        rw [if_pos hend]
        exact List.getElem?_eq_getElem hpos
      refine ⟨l[0], hfirst, hfound 0 hpos, Or.inr ⟨fun q hq => ?_, fun q hq => ?_⟩⟩
      · obtain ⟨j, hj, rfl⟩ := hmem q hq
        exact hbelow j (by omega)
      · obtain ⟨j, hj, rfl⟩ := hmem q hq
        rw [← hat 0 hpos]
        exact hsorted' 0 j (Nat.zero_le j) hj
    · have hi : i < l.length := Nat.lt_of_not_le hend
      have hhere : l[if l.length ≤ i then 0 else i]? = some l[i] := by
        rw [if_neg hend]
        exact List.getElem?_eq_getElem hi
      refine ⟨l[i], hhere, hfound i hi, Or.inl ⟨?_, fun q hq hk => ?_⟩⟩
      · rw [← hat i hi]
        exact le_of_lt (habove i (Nat.le_refl i) hi)
      · obtain ⟨j, hj, rfl⟩ := hmem q hq
        rw [← hat i hi]
        refine hsorted' i j (Nat.le_of_not_lt fun hlt => ?_) hj
        exact absurd hk (not_le.mpr (hbelow j hlt))

end Ring

end BinarySearch
