/-
  CHOOSING BY RANK: what a program does with a list that it keeps in order.

  * `Earliest P key l a` — of the elements of `l` that satisfy `P`, `a` is one of least `key`, and the
    first such in the list.  A stable sort followed by "the first that satisfies `P`" finds exactly
    that one (`find?_insertionSort`).
  * `mem_take_iff` — in a list whose keys increase, an element is among the first `n` exactly when
    fewer than `n` elements have a smaller key.  A truncated scan is thereby described with no list
    in sight.
  * `exists_insertionSort_replace` — an element that is exchanged for another of the same key is found in its
    place in the sorted list, and everything else where it was.
  * `insertionSort_append_insertionSort` — a list that is sorted again whenever something was put at its end is
    the list that is sorted once.
  * `filter_insertionSort` — what is kept of a sorted list is what was kept, sorted; of elements that may stand in
    any order that is the stability of the sort.
  * `length_take_filter` — a scan that stops at `n` hits and looks at `p` only has the right size for
    `p` and `q` together as soon as its hits satisfy `q`.
-/
import Mathlib.Data.List.Sort
import Mathlib.Data.List.Forall2
import Mathlib.Data.List.Perm.Subperm

set_option linter.unusedVariables false

namespace Rank

variable {α β γ : Type*} [LinearOrder γ]

/-! ## The order of the keys -/

instance (priority := low) totalAscending (key : α → γ) : Std.Total fun x y : α => key x ≤ key y :=
  ⟨fun x y => le_total _ _⟩

instance (priority := low) transAscending (key : α → γ) : IsTrans α fun x y => key x ≤ key y :=
  ⟨fun x y z => le_trans⟩

instance (priority := low) totalDescending (key : α → γ) : Std.Total fun x y : α => key y ≤ key x :=
  ⟨fun x y => le_total _ _⟩

instance (priority := low) transDescending (key : α → γ) : IsTrans α fun x y => key y ≤ key x :=
  ⟨fun x y z hxy hyz => le_trans hyz hxy⟩

/-! ## The earliest of the least -/

/-- `a` satisfies `P`; what stands before it in the list and satisfies `P` has a larger key, and what
    stands after it no smaller one. -/
def Earliest (P : α → Prop) (key : α → γ) (l : List α) (a : α) : Prop :=
  ∃ before after, l = before ++ a :: after ∧ P a ∧ (∀ b ∈ before, P b → key a < key b) ∧
    ∀ b ∈ after, P b → key a ≤ key b

section Earliest

variable {P : α → Prop} {key : α → γ}

theorem Earliest.mem {l : List α} {a : α} (h : Earliest P key l a) : a ∈ l := by
  obtain ⟨before, after, rfl, -⟩ := h
  exact List.mem_append_right _ List.mem_cons_self

theorem Earliest.holds {l : List α} {a : α} (h : Earliest P key l a) : P a := by
  obtain ⟨before, after, -, hP, -⟩ := h
  exact hP

/-- The earliest of a list with one element more in front. -/
theorem earliest_cons {l : List α} {a b : α} :
    Earliest P key (b :: l) a ↔
      (a = b ∧ P b ∧ ∀ c ∈ l, P c → key b ≤ key c) ∨
        (Earliest P key l a ∧ (P b → key a < key b)) := by
  constructor
  · rintro ⟨before, after, hl, hP, hbefore, hafter⟩
    cases before with
    | nil =>
      obtain ⟨rfl, rfl⟩ := List.cons.inj hl
      exact Or.inl ⟨rfl, hP, hafter⟩
    | cons c before =>
      obtain ⟨rfl, rfl⟩ := List.cons.inj hl
      refine Or.inr ⟨⟨before, after, rfl, hP, fun d hd => ?_, hafter⟩, hbefore b List.mem_cons_self⟩
      exact hbefore d (List.mem_cons_of_mem b hd)
  · rintro (⟨rfl, hP, hafter⟩ | ⟨⟨before, after, rfl, hP, hbefore, hafter⟩, hb⟩)
    · exact ⟨[], l, rfl, hP, fun c hc => absurd hc List.not_mem_nil, hafter⟩
    · refine ⟨b :: before, after, rfl, hP, fun d hd => ?_, hafter⟩
      rcases List.mem_cons.mp hd with rfl | hd
      · exact hb
      · exact hbefore d hd

variable (p : α → Bool) (key)

/-- The first hit after one more element has been put in its place. -/
theorem find?_orderedInsert (b : α) {l : List α} (hsorted : l.Pairwise fun x y => key x ≤ key y)
    (a : α) :
    (l.orderedInsert (fun x y => key x ≤ key y) b).find? p = some a ↔
      (a = b ∧ p b = true ∧ ∀ c, l.find? p = some c → key b ≤ key c) ∨
        (l.find? p = some a ∧ (p b = true → key a < key b)) := by
  induction l with
  | nil =>
    rw [List.orderedInsert_nil, List.find?_cons, List.find?_nil]
    cases hb : p b with
    | false => simp only [Bool.false_eq_true, false_and, and_false, or_false, reduceCtorEq]
    | true =>
      simp only [Option.some.injEq, reduceCtorEq, false_and, or_false, IsEmpty.forall_iff, implies_true,
        and_true]
      exact eq_comm
  | cons c l ih =>
    obtain ⟨hc, hl⟩ := List.pairwise_cons.mp hsorted
    have hfirst : ∀ d, (c :: l).find? p = some d → key c ≤ key d := by
      intro d hd
      rcases List.mem_cons.mp (List.mem_of_find?_eq_some hd) with rfl | hmem
      · exact le_refl _
      · exact hc d hmem
    by_cases hbc : key b ≤ key c
    · -- the new element goes to the front
      rw [List.orderedInsert_cons, if_pos hbc, List.find?_cons]
      cases hb : p b with
      | true =>
        simp only [Option.some.injEq, true_and, forall_const]
        constructor
        · rintro rfl
          exact Or.inl ⟨rfl, fun d hd => le_trans hbc (hfirst d hd)⟩
        · rintro (⟨rfl, -⟩ | ⟨ha, hlt⟩)
          · rfl
          · exact absurd (le_trans hbc (hfirst a ha)) (not_le.mpr hlt)
      | false => simp only [Bool.false_eq_true, false_and, and_false, false_or, IsEmpty.forall_iff, and_true]
    · rw [List.orderedInsert_cons, if_neg hbc, List.find?_cons, List.find?_cons]
      cases hpc : p c with
      | true =>
        simp only [Option.some.injEq]
        constructor
        · rintro rfl
          exact Or.inr ⟨rfl, fun _ => not_le.mp hbc⟩
        · rintro (⟨rfl, -, hle⟩ | ⟨rfl, -⟩)
          · exact absurd (hle c rfl) hbc
          · rfl
      | false => exact ih hl

/-- **The first hit in the sorted list is the earliest of the least.** -/
theorem find?_insertionSort (l : List α) (a : α) :
    (l.insertionSort fun x y => key x ≤ key y).find? p = some a ↔
      Earliest (fun b => p b = true) key l a := by
  induction l generalizing a with
  | nil =>
    refine iff_of_false nofun ?_
    rintro ⟨before, after, hl, -⟩
    exact absurd hl.symm (List.append_ne_nil_of_right_ne_nil _ (List.cons_ne_nil _ _))
  | cons b l ih =>
    rw [List.insertionSort_cons, find?_orderedInsert key p b (List.pairwise_insertionSort _ l),
      earliest_cons]
    refine or_congr (and_congr_right fun _ => and_congr_right fun _ => ?_) (and_congr_left' (ih a))
    constructor
    · -- the least of the rest is no smaller, hence none of the rest is
      intro hleast c hc hpc
      obtain ⟨d, hd⟩ : ∃ d, (l.insertionSort fun x y => key x ≤ key y).find? p = some d := by
        rw [← Option.isSome_iff_exists, List.find?_isSome]
        exact ⟨c, (List.mem_insertionSort _).mpr hc, hpc⟩
      refine le_trans (hleast d hd) ?_
      obtain ⟨before, after, hl, -, hbefore, hafter⟩ := (ih d).mp hd
      rw [hl] at hc
      rcases List.mem_append.mp hc with hc | hc
      · exact le_of_lt (hbefore c hc hpc)
      · rcases List.mem_cons.mp hc with rfl | hc
        · exact le_refl _
        · exact hafter c hc hpc
    · intro hall c hfind
      have hearliest := (ih c).mp hfind
      exact hall c hearliest.mem hearliest.holds

end Earliest

/-- The first in the sorted list that satisfies `P`, whether or not `P` can be computed. -/
theorem earliest_iff_first {P : α → Prop} {key : α → γ} {l : List α} {a : α} :
    Earliest P key l a ↔
      ∃ before after, (l.insertionSort fun x y => key x ≤ key y) = before ++ a :: after ∧
        (∀ b ∈ before, ¬ P b) ∧ P a := by
  classical
  have hfind := find?_insertionSort key (fun b => decide (P b)) l a
  simp only [decide_eq_true_eq, List.find?_eq_some_iff_append, Bool.not_eq_true', decide_eq_false_iff_not]
    at hfind
  rw [← hfind]
  constructor
  · rintro ⟨ha, before, after, hl, hbefore⟩
    exact ⟨before, after, hl, hbefore, ha⟩
  · rintro ⟨before, after, hl, hbefore, ha⟩
    exact ⟨ha, before, after, hl, hbefore⟩

/-- **The head of a sorted list** is the earliest of the least of all. -/
theorem earliest_iff_head {key : α → γ} {l : List α} {a : α} :
    Earliest (fun _ => True) key l a ↔ (l.insertionSort fun x y => key x ≤ key y).head? = some a := by
  rw [earliest_iff_first]
  constructor
  · rintro ⟨before, after, hl, hnone, -⟩
    cases before with
    | nil =>
      rw [hl]
      rfl
    | cons b before => exact absurd trivial (hnone b List.mem_cons_self)
  · intro hhead
    obtain ⟨after, hl⟩ := List.head?_eq_some_iff.mp hhead
    exact ⟨[], after, hl, fun b hb => absurd hb List.not_mem_nil, trivial⟩

/-- Some element satisfies `P` exactly when there is an earliest one. -/
theorem exists_earliest_iff {P : α → Prop} {key : α → γ} {l : List α} :
    (∃ a, Earliest P key l a) ↔ ∃ a ∈ l, P a := by
  classical
  have hfind := fun a => find?_insertionSort key (fun b => decide (P b)) l a
  simp only [decide_eq_true_eq] at hfind
  simp only [← hfind]
  rw [← Option.isSome_iff_exists, List.find?_isSome]
  simp only [List.mem_insertionSort, decide_eq_true_eq]

/-- There is only one. -/
theorem Earliest.unique {P : α → Prop} {key : α → γ} {l : List α} {a b : α} (ha : Earliest P key l a)
    (hb : Earliest P key l b) : a = b := by
  classical
  have hfind := fun a => find?_insertionSort key (fun b => decide (P b)) l a
  simp only [decide_eq_true_eq] at hfind
  exact Option.some.inj (((hfind a).mpr ha).symm.trans ((hfind b).mpr hb))

/-! ## Sorting two lists alike -/

section Related

variable {R : α → β → Prop} {f : α → γ} {g : β → γ}

theorem forall₂_orderedInsert (hkey : ∀ a b, R a b → f a = g b) {a : α} {b : β} (hab : R a b)
    {l : List α} {m : List β} (h : List.Forall₂ R l m) :
    List.Forall₂ R (l.orderedInsert (fun x y => f x ≤ f y) a)
      (m.orderedInsert (fun x y => g x ≤ g y) b) := by
  induction h with
  | nil => exact .cons hab .nil
  | @cons c d l m hcd hrest ih =>
    rw [List.orderedInsert_cons, List.orderedInsert_cons, hkey a b hab, hkey c d hcd]
    split
    · exact .cons hab (.cons hcd hrest)
    · exact .cons hcd ih

/-- Lists that correspond element by element still do once both are sorted by the same key. -/
theorem forall₂_insertionSort (hkey : ∀ a b, R a b → f a = g b) {l : List α} {m : List β}
    (h : List.Forall₂ R l m) :
    List.Forall₂ R (l.insertionSort fun x y => f x ≤ f y) (m.insertionSort fun x y => g x ≤ g y) := by
  induction h with
  | nil => exact .nil
  | cons hab hrest ih => exact forall₂_orderedInsert hkey hab ih

end Related

/-! ## One element for another -/

section Replace

variable {key : α → γ}

/-- Where an element goes depends on its key, and where it lets others go too. -/
theorem exists_orderedInsert_replace (b : α) {a a' : α} (hkey : key a = key a') (pre post : List α) :
    ∃ pre' post', (pre ++ a :: post).orderedInsert (fun x y => key x ≤ key y) b = pre' ++ a :: post' ∧
      (pre ++ a' :: post).orderedInsert (fun x y => key x ≤ key y) b = pre' ++ a' :: post' := by
  induction pre with
  | nil =>
    rw [List.nil_append, List.nil_append, List.orderedInsert_cons, List.orderedInsert_cons, hkey]
    by_cases hb : key b ≤ key a'
    · rw [if_pos hb, if_pos hb]
      exact ⟨[b], post, rfl, rfl⟩
    · rw [if_neg hb, if_neg hb]
      exact ⟨[], post.orderedInsert (fun x y => key x ≤ key y) b, rfl, rfl⟩
  | cons c pre ih =>
    obtain ⟨pre', post', h, h'⟩ := ih
    rw [List.cons_append, List.cons_append, List.orderedInsert_cons, List.orderedInsert_cons]
    by_cases hb : key b ≤ key c
    · rw [if_pos hb, if_pos hb]
      exact ⟨b :: c :: pre, post, rfl, rfl⟩
    · rw [if_neg hb, if_neg hb, h, h']
      exact ⟨c :: pre', post', rfl, rfl⟩

/-- **One element for another of the same key**: nothing else moves when the list is sorted. -/
theorem exists_insertionSort_replace {a a' : α} (hkey : key a = key a') (before after : List α) :
    ∃ pre post, ((before ++ a :: after).insertionSort fun x y => key x ≤ key y) = pre ++ a :: post ∧
      ((before ++ a' :: after).insertionSort fun x y => key x ≤ key y) = pre ++ a' :: post := by
  induction before with
  | nil =>
    rw [List.nil_append, List.nil_append, List.insertionSort_cons_eq_take_drop,
      List.insertionSort_cons_eq_take_drop, hkey]
    exact ⟨_, _, rfl, rfl⟩
  | cons b before ih =>
    obtain ⟨pre, post, h, h'⟩ := ih
    rw [List.cons_append, List.cons_append, List.insertionSort_cons, List.insertionSort_cons, h, h']
    exact exists_orderedInsert_replace b hkey pre post

end Replace

/-! ## Sorting over and over -/

section Resort

variable (r : α → α → Prop) [DecidableRel r]

theorem insertionSort_append (l m : List α) :
    (l ++ m).insertionSort r = l.foldr (List.orderedInsert r) (m.insertionSort r) := by
  rw [List.insertionSort, List.foldr_append]

variable [Std.Total r] [IsTrans α r]

/-- Two elements that are put in their places, the later of which goes further to the front. -/
theorem orderedInsert_orderedInsert {a b : α} (h : ¬ r a b) (l : List α) :
    (l.orderedInsert r a).orderedInsert r b = (l.orderedInsert r b).orderedInsert r a := by
  have hba : r b a := (Std.Total.total a b).resolve_left h
  induction l with
  | nil => rw [List.orderedInsert_nil, List.orderedInsert_nil, List.orderedInsert_cons, List.orderedInsert_cons,
      if_pos hba, if_neg h, List.orderedInsert_nil]
  | cons c l ih =>
    by_cases hac : r a c
    · have hbc : r b c := IsTrans.trans b a c hba hac
      rw [List.orderedInsert_cons_of_le r l hac, List.orderedInsert_cons_of_le r l hbc,
        List.orderedInsert_cons_of_le r _ hba, List.orderedInsert_of_not_le r _ h,
        List.orderedInsert_cons_of_le r l hac]
    · rw [List.orderedInsert_of_not_le r l hac]
      by_cases hbc : r b c
      · rw [List.orderedInsert_cons_of_le r _ hbc, List.orderedInsert_cons_of_le r _ hbc,
          List.orderedInsert_of_not_le r _ h, List.orderedInsert_of_not_le r _ hac]
      · rw [List.orderedInsert_of_not_le r _ hbc, List.orderedInsert_of_not_le r _ hbc,
          List.orderedInsert_of_not_le r _ hac, ih]

/-- Elements are put into a list from the last to the first, whether or not one of them was in its place. -/
theorem foldr_orderedInsert (a : α) (l s : List α) :
    (l.orderedInsert r a).foldr (List.orderedInsert r) s = (l.foldr (List.orderedInsert r) s).orderedInsert r a := by
  induction l with
  | nil => rfl
  | cons b l ih =>
    by_cases hab : r a b
    · rw [List.orderedInsert_cons_of_le r l hab]
      rfl
    · rw [List.orderedInsert_of_not_le r l hab, List.foldr_cons, List.foldr_cons, ih,
        orderedInsert_orderedInsert r hab]

theorem foldr_insertionSort (l s : List α) :
    (l.insertionSort r).foldr (List.orderedInsert r) s = l.foldr (List.orderedInsert r) s := by
  induction l with
  | nil => rfl
  | cons a l ih => rw [List.insertionSort_cons, foldr_orderedInsert, ih, List.foldr_cons]

/-- **Sorting a list that is sorted already but for its end** is sorting it once. -/
theorem insertionSort_append_insertionSort (l m : List α) :
    (l.insertionSort r ++ m).insertionSort r = (l ++ m).insertionSort r := by
  rw [insertionSort_append, insertionSort_append, foldr_insertionSort]

/-! ## Some of a sorted list -/

omit [Std.Total r] in
/-- An element is put among those that are kept, or is not kept itself. -/
theorem filter_orderedInsert (p : α → Bool) (a : α) {l : List α} (hsorted : l.Pairwise r) :
    (l.orderedInsert r a).filter p = if p a then (l.filter p).orderedInsert r a else l.filter p := by
  induction l with
  | nil =>
    rw [List.orderedInsert_nil, List.filter_cons, List.filter_nil]
    rfl
  | cons b l ih =>
    obtain ⟨hb, hl⟩ := List.pairwise_cons.mp hsorted
    by_cases hab : r a b
    · rw [List.orderedInsert_cons_of_le r l hab, List.filter_cons]
      by_cases ha : p a = true
      · -- nothing that is kept goes before it
        rw [if_pos ha, if_pos ha]
        rcases hkept : (b :: l).filter p with _ | ⟨c, kept⟩
        · rw [List.orderedInsert_nil]
        · have hc : c ∈ b :: l := List.mem_of_mem_filter (hkept ▸ List.mem_cons_self)
          have hac : r a c := by
            rcases List.mem_cons.mp hc with rfl | hc
            · exact hab
            · exact IsTrans.trans a b c hab (hb c hc)
          rw [List.orderedInsert_cons_of_le r kept hac]
      · rw [if_neg ha, if_neg ha]
    · rw [List.orderedInsert_of_not_le r l hab, List.filter_cons, ih hl, List.filter_cons]
      by_cases hpb : p b = true
      · rw [if_pos hpb, if_pos hpb, List.orderedInsert_of_not_le r (l.filter p) hab]
        split <;> rfl
      · rw [if_neg hpb, if_neg hpb]

/-- **What is kept of a sorted list** is what was kept, sorted. -/
theorem filter_insertionSort (p : α → Bool) (l : List α) :
    (l.insertionSort r).filter p = (l.filter p).insertionSort r := by
  induction l with
  | nil => rfl
  | cons a l ih =>
    rw [List.insertionSort_cons, filter_orderedInsert r p a (List.pairwise_insertionSort r l), ih, List.filter_cons]
    split
    · rw [List.insertionSort_cons]
    · rfl

/-- **Stability**: elements that may stand in any order stand as they did. -/
theorem filter_insertionSort_of_equal {p : α → Bool} (h : ∀ a b, p a = true → p b = true → r a b) (l : List α) :
    (l.insertionSort r).filter p = l.filter p := by
  rw [filter_insertionSort]
  refine List.Pairwise.insertionSort_eq (List.pairwise_iff_forall_sublist.mpr fun hsub => ?_)
  exact h _ _ (List.of_mem_filter (hsub.subset List.mem_cons_self))
    (List.of_mem_filter (hsub.subset (List.mem_cons_of_mem _ List.mem_cons_self)))

end Resort

theorem mem_iff_of_filter_key {key : α → γ} {l m : List α}
    (h : ∀ k, (l.filter fun a => key a = k) = m.filter fun a => key a = k) (a : α) : a ∈ l ↔ a ∈ m := by
  have hpart := congrArg (a ∈ ·) (h (key a))
  simpa using hpart

/-- **A sorted list is known by the parts of one key**: two that agree in each of them are the same. -/
theorem eq_of_filter_key (key : α → γ) {l m : List α} (hl : l.Pairwise fun x y => key x ≤ key y)
    (hm : m.Pairwise fun x y => key x ≤ key y)
    (h : ∀ k, (l.filter fun a => key a = k) = m.filter fun a => key a = k) : l = m := by
  induction l generalizing m with
  | nil =>
    refine (List.eq_nil_iff_forall_not_mem.mpr fun a ha => ?_).symm
    exact absurd ((mem_iff_of_filter_key h a).mpr ha) List.not_mem_nil
  | cons a l ih =>
    have hmem := mem_iff_of_filter_key h
    cases m with
    | nil => exact absurd ((hmem a).mp List.mem_cons_self) List.not_mem_nil
    | cons b m =>
      obtain ⟨ha, hltail⟩ := List.pairwise_cons.mp hl
      obtain ⟨hb, hmtail⟩ := List.pairwise_cons.mp hm
      -- both are of the least key, and the first of it
      have hab : key a ≤ key b := by
        rcases List.mem_cons.mp ((hmem b).mpr List.mem_cons_self) with heq | hmem
        · exact (congrArg key heq).ge
        · exact ha b hmem
      have hba : key b ≤ key a := by
        rcases List.mem_cons.mp ((hmem a).mp List.mem_cons_self) with heq | hmem
        · exact (congrArg key heq).ge
        · exact hb a hmem
      have hkey : key b = key a := le_antisymm hba hab
      have hfirst := h (key a)
      rw [List.filter_cons_of_pos (by simp), List.filter_cons_of_pos (by simp [hkey])] at hfirst
      obtain ⟨rfl, -⟩ := List.cons.inj hfirst
      have hparts : ∀ k, (l.filter fun c => key c = k) = m.filter fun c => key c = k := by
        intro k
        have hk := h k
        rw [List.filter_cons, List.filter_cons] at hk
        split at hk
        · exact (List.cons.inj hk).2
        · exact hk
      rw [ih hltail hmtail hparts]

/-! ## The first `n` -/

section Sorted

variable {δ : Type*} [Preorder δ] {key : α → δ} {l : List α}

/-- **Truncation by rank**: among the first `n` are the elements with fewer than `n` before them. -/
theorem mem_take_iff [DecidableLT δ] (hsorted : l.Pairwise fun x y => key x < key y)
    {a : α} (ha : a ∈ l) (n : Nat) :
    a ∈ l.take n ↔ (l.countP fun b => decide (key b < key a)) < n := by
  induction l generalizing n with
  | nil => exact absurd ha List.not_mem_nil
  | cons b l ih =>
    obtain ⟨hb, hl⟩ := List.pairwise_cons.mp hsorted
    cases n with
    | zero => exact iff_of_false List.not_mem_nil (Nat.not_lt_zero _)
    | succ n =>
      rw [List.take_succ_cons, List.mem_cons]
      rcases List.mem_cons.mp ha with rfl | hmem
      · refine iff_of_true (Or.inl rfl) ?_
        have hnone : ((a :: l).countP fun b => decide (key b < key a)) = 0 := by
          refine List.countP_eq_zero.mpr fun c hc => ?_
          rw [decide_eq_true_eq]
          rcases List.mem_cons.mp hc with rfl | hc
          · exact lt_irrefl _
          · exact lt_asymm (hb c hc)
        rw [hnone]
        exact Nat.succ_pos n
      · have hne : a ≠ b := by
          rintro rfl
          exact lt_irrefl _ (hb a hmem)
        rw [List.countP_cons, if_pos (decide_eq_true (hb a hmem)), Nat.add_lt_add_iff_right, ← ih hl hmem]
        exact or_iff_right hne

/-- In a list whose keys increase, "pairwise" is a statement about keys. -/
theorem pairwise_iff_of_sorted {R : α → α → Prop}
    (hsorted : l.Pairwise fun x y => key x < key y) :
    l.Pairwise R ↔ ∀ a ∈ l, ∀ b ∈ l, key a < key b → R a b := by
  induction l with
  | nil => exact iff_of_true .nil fun a ha => absurd ha List.not_mem_nil
  | cons x l ih =>
    obtain ⟨hx, hl⟩ := List.pairwise_cons.mp hsorted
    rw [List.pairwise_cons, ih hl]
    constructor
    · rintro ⟨hfirst, hrest⟩ a ha b hb hab
      rcases List.mem_cons.mp hb with rfl | hb'
      · -- nothing has a smaller key than the first
        rcases List.mem_cons.mp ha with rfl | ha'
        · exact absurd hab (lt_irrefl _)
        · exact absurd hab (lt_asymm (hx a ha'))
      · rcases List.mem_cons.mp ha with rfl | ha'
        · exact hfirst b hb'
        · exact hrest a ha' b hb' hab
    · intro hall
      refine ⟨fun b hb => hall x List.mem_cons_self b (List.mem_cons_of_mem x hb) (hx b hb), ?_⟩
      exact fun a ha b hb => hall a (List.mem_cons_of_mem x ha) b (List.mem_cons_of_mem x hb)

end Sorted

/-- **The size of a truncated scan.** -/
theorem length_take_filter {p q : α → Bool} {l : List α} {n : Nat}
    (h : ∀ a ∈ (l.filter p).take n, q a = true) :
    ((l.filter p).take n).length = min n (l.countP fun a => p a && q a) := by
  have hcount : (l.countP fun a => p a && q a) = (l.filter p).countP q := by
    rw [List.countP_filter]
    simp only [Bool.and_comm]
  rw [hcount, List.length_take]
  have hall : ((l.filter p).take n).countP q = ((l.filter p).take n).length :=
    List.countP_eq_length.mpr h
  rcases Nat.le_total (l.filter p).length n with hshort | hlong
  · rw [List.take_of_length_le hshort] at hall
    rw [hall]
  · have hsub := (List.take_sublist n (l.filter p)).countP_le (p := q)
    rw [hall, List.length_take, Nat.min_eq_left hlong] at hsub
    rw [Nat.min_eq_left hlong, Nat.min_eq_left hsub]

/-- Nothing is cut off when there are no more than `n`. -/
theorem forall_mem_take_iff {n : Nat} {l : List α} (h : l.Nodup) : (∀ a ∈ l, a ∈ l.take n) ↔ l.length ≤ n := by
  constructor
  · intro hall
    exact Nat.le_trans (List.subperm_of_subset h hall).length_le (List.length_take_le n l)
  · intro hlen a ha
    rwa [List.take_of_length_le hlen]

/-! ## Several walks -/

/-- Walks that meet nothing twice: an element is met once by each walk that meets it. -/
theorem count_flatMap_of_nodup [DecidableEq β] {walk : α → List β} (h : ∀ a, (walk a).Nodup) (l : List α) (b : β) :
    (l.flatMap walk).count b = l.countP fun a => b ∈ walk a := by
  induction l with
  | nil => rfl
  | cons a l ih =>
    rw [List.flatMap_cons, List.count_append, ih, (h a).count, List.countP_cons, Nat.add_comm]
    simp only [decide_eq_true_eq]

end Rank
