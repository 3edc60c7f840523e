/-
  BINARY HEAPS as a program sees them that pushes and drains.

  The elements stand in an array in which the parent of position `i` is at `(i - 1) / 2`.  A push puts the new
  element at the end and moves it up past every parent that it precedes (`siftUp`).  A drain yields the array AS
  IT IS: the least element first (`head_le`), and the others in no particular order.

  A heap that is only pushed to and drained is therefore an `IterOrder`: the order in which a drain meets what
  was pushed, one after the other, since the drain before (`order`).  In no particular order means that what is
  behind the first half of the array may be in any (`ordered_replicate_append`).
-/
import Mathlib.Order.Lattice
import Mathlib.Data.List.Induction
import Smppd.Lib.Table

namespace Heap

open Table

variable {α κ : Type*} [LinearOrder κ] (key : α → κ)

/-- The position of the parent. -/
def parent (i : ℕ) : ℕ := (i - 1) / 2

theorem parent_lt {i : ℕ} (h : 0 < i) : parent i < i := by
  unfold parent
  omega

/-- The position `i` is a hole, to which `x` comes unless it precedes the parent; the position itself is fuel
    enough. -/
def siftUp (x : α) : (fuel : ℕ) → List α → (i : ℕ) → List α
  | 0, a, i => a.set i x
  | fuel + 1, a, i =>
    if i = 0 then a.set i x
    else
      match a[parent i]? with
      | some p => if key x < key p then siftUp x fuel (a.set i p) (parent i) else a.set i x
      | none => a.set i x

/-- Push an element. -/
def push (a : List α) (x : α) : List α := siftUp key x a.length (a ++ [x]) a.length

/-- The array after pushes. -/
def ofPushes (l : List α) : List α := l.foldl (push key) []

/-- Nothing precedes its parent. -/
def Ordered (a : List α) : Prop :=
  ∀ i x p, 0 < i → a[i]? = some x → a[parent i]? = some p → key p ≤ key x

/-! ## Nothing is lost -/

variable {key}

theorem siftUp_perm (x : α) (fuel : ℕ) (a : List α) (i : ℕ) (hi : i < a.length) :
    (siftUp key x fuel a i).Perm (a.set i x) := by
  induction fuel generalizing a i with
  | zero => exact List.Perm.refl _
  | succ fuel ih =>
    rw [siftUp]
    split
    · exact List.Perm.refl _
    · rename_i hroot
      split
      · rename_i p hp
        split
        · -- the hole changes places with the parent
          have hlt : parent i < i := parent_lt (Nat.pos_of_ne_zero hroot)
          obtain ⟨hpi, hget⟩ := List.getElem?_eq_some_iff.mp hp
          have hi' : i < (a.set i x).length := by rw [List.length_set]; exact hi
          have hpi' : parent i < (a.set i x).length := by rw [List.length_set]; exact hpi
          have hparent : (a.set i x)[parent i] = p := by
            rw [List.getElem_set_ne (Nat.ne_of_gt hlt), hget]
          have hself : (a.set i x)[i] = x := List.getElem_set_self _
          have hswap := List.set_set_perm hi' hpi'
          rw [hparent, hself, List.set_set] at hswap
          exact (ih (a.set i p) (parent i) (by rw [List.length_set]; exact hpi)).trans hswap
        · exact List.Perm.refl _
      · exact List.Perm.refl _

theorem push_perm (a : List α) (x : α) : (push key a x).Perm (a ++ [x]) := by
  have hlen : a.length < (a ++ [x]).length := by
    rw [List.length_append, List.length_singleton]
    omega
  have hset : (a ++ [x]).set a.length x = a ++ [x] := by
    rw [List.set_append_right _ _ (Nat.le_refl _), Nat.sub_self, List.set_cons_zero]
  have hperm : (push key a x).Perm ((a ++ [x]).set a.length x) := siftUp_perm x a.length (a ++ [x]) a.length hlen
  rw [hset] at hperm
  exact hperm

theorem ofPushes_append (l : List α) (x : α) : ofPushes key (l ++ [x]) = push key (ofPushes key l) x :=
  List.foldl_concat ..

theorem ofPushes_perm (l : List α) : (ofPushes key l).Perm l := by
  induction l using List.reverseRecOn with
  | nil => exact List.Perm.refl _
  | append_singleton l x ih =>
    rw [ofPushes_append]
    exact (push_perm _ _).trans (ih.append_right [x])

/-- In the order in which a drain meets what was pushed. -/
def order (key : α → κ) : IterOrder α := ⟨ofPushes key, ofPushes_perm⟩

/-! ## The least is in front -/

/-- What a hole at `i` needs for `x` to be moved up from there: the pairs off the hole are in order, and so are
    those that putting `x` in, or moving the parent down, will make. -/
structure Ready (key : α → κ) (x : α) (a : List α) (i : ℕ) : Prop where
  off : ∀ j y p, 0 < j → j ≠ i → parent j ≠ i → a[j]? = some y → a[parent j]? = some p → key p ≤ key y
  across : 0 < i → ∀ j y p, 0 < j → parent j = i → a[j]? = some y → a[parent i]? = some p → key p ≤ key y
  below : ∀ j y, 0 < j → parent j = i → a[j]? = some y → key x ≤ key y

/-- Where `x` does not precede the parent of the hole, it is put in. -/
theorem Ready.put {x : α} {a : List α} {i : ℕ} (h : Ready key x a i)
    (hstop : 0 < i → ∀ p, a[parent i]? = some p → key p ≤ key x) : Ordered key (a.set i x) := by
  intro j y p hj hy hp
  by_cases hji : j = i
  · obtain rfl := hji
    rw [List.getElem?_set_ne (Nat.ne_of_gt (parent_lt hj))] at hp
    have hself : y = x := by
      rw [List.getElem?_set_self'] at hy
      obtain ⟨_, -, hxy⟩ := Option.map_eq_some_iff.mp hy
      exact hxy.symm
    rw [hself]
    exact hstop hj p hp
  · rw [List.getElem?_set_ne (Ne.symm hji)] at hy
    by_cases hpi : parent j = i
    · have hself : p = x := by
        rw [hpi, List.getElem?_set_self'] at hp
        obtain ⟨_, -, hxp⟩ := Option.map_eq_some_iff.mp hp
        exact hxp.symm
      rw [hself]
      exact h.below j y hj hpi hy
    · rw [List.getElem?_set_ne (Ne.symm hpi)] at hp
      exact h.off j y p hj hji hpi hy hp

/-- Where it precedes the parent, the parent moves down, and the hole up. -/
theorem Ready.move {x q : α} {a : List α} {i : ℕ} (h : Ready key x a i) (hi : 0 < i)
    (hq : a[parent i]? = some q) (hlt : key x < key q) : Ready key x (a.set i q) (parent i) := by
  have hup := parent_lt hi
  -- what the position of the old hole holds now
  have hold : ∀ y, (a.set i q)[i]? = some y → y = q := by
    intro y hy
    rw [List.getElem?_set_self'] at hy
    obtain ⟨_, -, hqy⟩ := Option.map_eq_some_iff.mp hy
    exact hqy.symm
  have hother : ∀ j, j ≠ i → (a.set i q)[j]? = a[j]? := fun j hj => List.getElem?_set_ne (Ne.symm hj)
  refine ⟨fun j y p hj hji hpi hy hp => ?_, fun hroot j y p hj hpj hy hp => ?_, fun j y hj hpj hy => ?_⟩
  · by_cases hj' : j = i
    · exact absurd (congrArg parent hj') hpi
    · rw [hother j hj'] at hy
      by_cases hp' : parent j = i
      · rw [hp'] at hp
        rw [hold p hp]
        exact h.across hi j y q hj hp' hy hq
      · rw [hother _ hp'] at hp
        exact h.off j y p hj hj' hp' hy hp
  · have hgrand : parent (parent i) ≠ i := Nat.ne_of_lt ((parent_lt hroot).trans hup)
    rw [hother _ hgrand] at hp
    have hpq : key p ≤ key q := h.off (parent i) q p hroot (Nat.ne_of_lt hup) hgrand hq hp
    by_cases hj' : j = i
    · rw [hj'] at hy
      rw [hold y hy]
      exact hpq
    · rw [hother j hj'] at hy
      refine hpq.trans (h.off j y q hj hj' ?_ hy (hpj ▸ hq))
      rw [hpj]
      exact Nat.ne_of_lt hup
  · by_cases hj' : j = i
    · rw [hj'] at hy
      rw [hold y hy]
      exact hlt.le
    · rw [hother j hj'] at hy
      refine hlt.le.trans (h.off j y q hj hj' ?_ hy (hpj ▸ hq))
      rw [hpj]
      exact Nat.ne_of_lt hup

theorem siftUp_ordered {x : α} {fuel : ℕ} {a : List α} {i : ℕ} (hfuel : i ≤ fuel) (h : Ready key x a i) :
    Ordered key (siftUp key x fuel a i) := by
  induction fuel generalizing a i with
  | zero =>
    obtain rfl := Nat.le_zero.mp hfuel
    exact h.put fun hpos => absurd hpos (Nat.lt_irrefl 0)
  | succ fuel ih =>
    rw [siftUp]
    split
    · rename_i hroot
      exact h.put fun hpos => absurd hroot (Nat.ne_of_gt hpos)
    · rename_i hroot
      have hpos := Nat.pos_of_ne_zero hroot
      have hup := parent_lt hpos
      split
      · rename_i q hq
        split
        · rename_i hlt
          exact ih (by omega) (h.move hpos hq hlt)
        · rename_i hlt
          refine h.put fun _ p hp => ?_
          obtain rfl : q = p := Option.some.inj (hq.symm.trans hp)
          exact not_lt.mp hlt
      · rename_i hnone
        refine h.put fun _ p hp => ?_
        rw [hnone] at hp
        cases hp

theorem push_ordered {a : List α} (h : Ordered key a) (x : α) : Ordered key (push key a x) := by
  have hend : ∀ j y, a.length < j → (a ++ [x])[j]? ≠ some y := by
    intro j y hj hy
    have hlt := (List.getElem?_eq_some_iff.mp hy).1
    rw [List.length_append, List.length_singleton] at hlt
    omega
  -- the new position is behind all others, so it is nobody's parent
  have hleaf : ∀ j y, 0 < j → parent j = a.length → (a ++ [x])[j]? ≠ some y := by
    intro j y hj hpj
    have hup := parent_lt hj
    exact hend j y (by omega)
  refine siftUp_ordered (Nat.le_refl _) ⟨fun j y p hj hji hpj hy hp => ?_, fun _ j y p hj hpj hy _ => ?_,
    fun j y hj hpj hy => absurd hy (hleaf j y hj hpj)⟩
  · have hj' : j < a.length := by
      by_contra hge
      exact hend j y (by omega) hy
    have hup := parent_lt hj
    rw [List.getElem?_append_left hj'] at hy
    rw [List.getElem?_append_left (by omega)] at hp
    exact h j y p hj hy hp
  · exact absurd hy (hleaf j y hj hpj)

theorem ofPushes_ordered (l : List α) : Ordered key (ofPushes key l) := by
  induction l using List.reverseRecOn with
  | nil =>
    intro i x p hi hx
    cases hx
  | append_singleton l x ih =>
    rw [ofPushes_append]
    exact push_ordered ih x

/-! ## What is in order stays as it is -/

theorem Ordered.of_append {l : List α} {x : α} (h : Ordered key (l ++ [x])) : Ordered key l := by
  intro i y p hi hy hp
  have hlen := (List.getElem?_eq_some_iff.mp hy).1
  have hup := parent_lt hi
  refine h i y p hi ?_ ?_
  · rw [List.getElem?_append_left hlen]
    exact hy
  · rw [List.getElem?_append_left (hup.trans hlen)]
    exact hp

/-- An element that does not precede its parent stays at the end. -/
theorem push_of_ordered {l : List α} {x : α} (h : Ordered key (l ++ [x])) : push key l x = l ++ [x] := by
  have hself : (l ++ [x])[l.length]? = some x := by
    rw [List.getElem?_append_right (Nat.le_refl _), Nat.sub_self, List.getElem?_cons_zero]
  have hset : (l ++ [x]).set l.length x = l ++ [x] := by
    rw [List.set_append_right _ _ (Nat.le_refl _), Nat.sub_self, List.set_cons_zero]
  unfold push
  cases hlen : l.length with
  | zero =>
    rw [hlen] at hset
    rw [siftUp, hset]
  | succ n =>
    rw [← hlen]
    nth_rewrite 1 [hlen]
    rw [siftUp, if_neg (by omega), hset]
    cases hp : (l ++ [x])[parent l.length]? with
    | none => rfl
    | some p =>
      have hle : key p ≤ key x := h l.length x p (by omega) hself hp
      dsimp only
      rw [if_neg (not_lt.mpr hle)]

/-- **A list in order is the array of its pushes.** -/
theorem Ordered.ofPushes_eq {l : List α} (h : Ordered key l) : ofPushes key l = l := by
  induction l using List.reverseRecOn with
  | nil => rfl
  | append_singleton l x ih => rw [ofPushes_append, ih h.of_append, push_of_ordered h]

/-- Behind as many elements that nothing precedes, others are in order in whatever order they are. -/
theorem ordered_replicate_append {a : α} {l : List α} (h : ∀ x ∈ l, key a ≤ key x) :
    Ordered key (List.replicate l.length a ++ l) := by
  have hle : ∀ x ∈ List.replicate l.length a ++ l, key a ≤ key x := by
    intro x hx
    rcases List.mem_append.mp hx with hfront | hback
    · rw [List.eq_of_mem_replicate hfront]
    · exact h x hback
  intro i x p hi hx hp
  have hlen := (List.getElem?_eq_some_iff.mp hx).1
  rw [List.length_append, List.length_replicate] at hlen
  -- the parents are all in front
  have hfront : parent i < (List.replicate l.length a).length := by
    rw [List.length_replicate, parent]
    omega
  rw [List.getElem?_append_left hfront] at hp
  rw [List.eq_of_mem_replicate (List.mem_of_getElem? hp)]
  exact hle x (List.mem_of_getElem? hx)

/-! ## The root -/

/-- Nothing precedes the root, by induction along the parents. -/
theorem root_le {a : List α} (h : Ordered key a) {r : α} (hr : a[0]? = some r) (i : ℕ) :
    ∀ x, a[i]? = some x → key r ≤ key x := by
  induction i using Nat.strongRecOn with
  | ind i ih =>
    intro x hx
    by_cases hi : i = 0
    · rw [hi, hr] at hx
      rw [Option.some.inj hx]
    · have hpos := Nat.pos_of_ne_zero hi
      have hup := parent_lt hpos
      have hlen := (List.getElem?_eq_some_iff.mp hx).1
      have hp : a[parent i]? = some a[parent i] := List.getElem?_eq_getElem (by omega)
      exact (ih (parent i) hup _ hp).trans (h i x _ hpos hx hp)

/-- **A drain begins with the least.** -/
theorem head_le {l : List α} {r : α} (hr : ((order key).arrange l).head? = some r) : ∀ x ∈ l, key r ≤ key x := by
  intro x hx
  have hmem : x ∈ ofPushes key l := (ofPushes_perm l).mem_iff.mpr hx
  obtain ⟨i, hi⟩ := List.mem_iff_getElem?.mp hmem
  rw [List.head?_eq_getElem?] at hr
  exact root_le (ofPushes_ordered l) hr i x hi

end Heap
