/-
  CYCLES: a counter that goes round a line of stretches.

  A weighted round robin lays the weights of its entries end to end.  A call reduces its counter modulo the
  total and takes the entry in whose stretch the point falls; the next call has the next counter.

  * `answers step n s` — what `n` calls in a row answer;
  * `owner entries point` — in whose stretch a point falls: the first entry at which the weights that have
    been added up exceed the point;
  * `count_owner` — as many points below the total fall to a label as its entries weigh together;
  * `count_cycle` — so they do for consecutive counters, wherever the cycle starts.
-/
import Mathlib.Data.Nat.Count
import Mathlib.Algebra.BigOperators.Group.List.Basic
import Mathlib.Algebra.Ring.Nat

namespace Cycle

variable {α β σ : Type*}

/-! ## Calls in a row -/

/-- What a number of calls in a row answer. -/
def answers (step : σ → β × σ) : ℕ → σ → List β
  | 0, _ => []
  | n + 1, s => (step s).1 :: answers step n (step s).2

/-- The state after a number of calls. -/
def after (step : σ → β × σ) : ℕ → σ → σ
  | 0, s => s
  | n + 1, s => after step n (step s).2

/-- If the state is known after each call, so are the answers. -/
theorem answers_eq_map {step : σ → β × σ} {state : ℕ → σ} (h : ∀ k, (step (state k)).2 = state (k + 1))
    (n c : ℕ) : answers step n (state c) = (List.range n).map fun k => (step (state (c + k))).1 := by
  induction n generalizing c with
  | zero => rfl
  | succ n ih =>
    have hshift : ∀ k, c + 1 + k = c + (k + 1) := fun k => by omega
    rw [answers, h, ih (c + 1), List.range_succ_eq_map, List.map_cons, List.map_map, Nat.add_zero]
    simp only [hshift]
    rfl

/-! ## Stretches end to end -/

/-- In whose stretch a point falls. -/
def owner : List (α × ℕ) → ℕ → Option α
  | [], _ => none
  | (a, w) :: entries, point => if point < w then some a else owner entries (point - w)

/-- What all the entries weigh. -/
def total (entries : List (α × ℕ)) : ℕ := (entries.map Prod.snd).sum

@[simp] theorem total_cons (a : α) (w : ℕ) (entries : List (α × ℕ)) :
    total ((a, w) :: entries) = w + total entries := by
  unfold total
  rw [List.map_cons, List.sum_cons]

/-- A point below the total is in the stretch of an entry that weighs something. -/
theorem exists_owner {entries : List (α × ℕ)} {point : ℕ} (h : point < total entries) :
    ∃ e ∈ entries, 0 < e.2 ∧ owner entries point = some e.1 := by
  induction entries generalizing point with
  | nil => exact absurd h (Nat.not_lt_zero point)
  | cons e entries ih =>
    obtain ⟨a, w⟩ := e
    rw [total_cons] at h
    unfold owner
    split
    · rename_i hhere
      exact ⟨(a, w), List.mem_cons_self, by omega, rfl⟩
    · have hrest : point - w < total entries := by omega
      obtain ⟨e, he, hpos, howner⟩ := ih hrest
      exact ⟨e, List.mem_cons_of_mem _ he, hpos, howner⟩

/-- Behind the stretches of one line the next line begins. -/
theorem owner_append (entries others : List (α × ℕ)) (point : ℕ) :
    owner (entries ++ others) point =
      if point < total entries then owner entries point else owner others (point - total entries) := by
  induction entries generalizing point with
  | nil => exact (if_neg (Nat.not_lt_zero point)).symm
  | cons e entries ih =>
    obtain ⟨a, w⟩ := e
    rw [List.cons_append, owner, owner, total_cons, ih]
    by_cases hhere : point < w
    · rw [if_pos hhere, if_pos hhere, if_pos (by omega)]
    · rw [if_neg hhere, if_neg hhere, Nat.sub_sub]
      by_cases hline : point - w < total entries
      · rw [if_pos hline, if_pos (by omega)]
      · rw [if_neg hline, if_neg (by omega)]

/-- A point from the total on is in nobody's stretch. -/
theorem owner_eq_none {entries : List (α × ℕ)} {point : ℕ} (h : total entries ≤ point) :
    owner entries point = none := by
  have hend := owner_append entries [] point
  rw [List.append_nil, if_neg (Nat.not_lt.mpr h)] at hend
  exact hend

/-- What the entries of one label weigh together. -/
def weightOf [DecidableEq α] (a : α) (entries : List (α × ℕ)) : ℕ :=
  total (entries.filter fun e => e.1 = a)

section Counting

variable [DecidableEq α]

theorem weightOf_cons (a b : α) (w : ℕ) (entries : List (α × ℕ)) :
    weightOf a ((b, w) :: entries) = (if b = a then w else 0) + weightOf a entries := by
  unfold weightOf
  rw [List.filter_cons]
  by_cases h : b = a
  · rw [if_pos (decide_eq_true h), total_cons, if_pos h]
  · rw [if_neg (mt of_decide_eq_true h), if_neg h, Nat.zero_add]

theorem weightOf_concat (a b : α) (w : ℕ) (entries : List (α × ℕ)) :
    weightOf a (entries ++ [(b, w)]) = weightOf a ((b, w) :: entries) := by
  induction entries with
  | nil => rfl
  | cons e entries ih =>
    obtain ⟨c, v⟩ := e
    rw [List.cons_append, weightOf_cons, ih, weightOf_cons, weightOf_cons, weightOf_cons]
    omega

theorem weightOf_eq_zero {a : α} {entries : List (α × ℕ)} (h : ∀ e ∈ entries, e.1 ≠ a) :
    weightOf a entries = 0 := by
  unfold weightOf
  rw [List.filter_eq_nil_iff.mpr fun e he => mt of_decide_eq_true (h e he)]
  rfl

/-- Where every label has one entry, it weighs what the entry does. -/
theorem weightOf_of_mem {entries : List (α × ℕ)} (hlabels : (entries.map Prod.fst).Nodup) {a : α} {w : ℕ}
    (h : (a, w) ∈ entries) : weightOf a entries = w := by
  induction entries with
  | nil => exact absurd h List.not_mem_nil
  | cons e entries ih =>
    obtain ⟨b, v⟩ := e
    obtain ⟨hfresh, hrest⟩ := List.nodup_cons.mp hlabels
    rw [weightOf_cons]
    rcases List.mem_cons.mp h with heq | hmem
    · obtain ⟨rfl, rfl⟩ := Prod.mk.inj heq
      have hothers : ∀ e ∈ entries, e.1 ≠ a := fun e he hsame => hfresh (List.mem_map.mpr ⟨e, he, hsame⟩)
      rw [if_pos rfl, weightOf_eq_zero hothers, Nat.add_zero]
    · have hne : b ≠ a := fun hsame => hfresh (List.mem_map.mpr ⟨(a, w), hmem, hsame.symm⟩)
      rw [if_neg hne, ih hrest hmem, Nat.zero_add]

/-- **The points of a line.**  Below the total as many points fall to a label as its entries weigh. -/
theorem count_owner (a : α) (entries : List (α × ℕ)) :
    Nat.count (fun point => owner entries point = some a) (total entries) = weightOf a entries := by
  induction entries with
  | nil => rfl
  | cons e entries ih =>
    obtain ⟨b, w⟩ := e
    -- the points of the first stretch, and then those of the others, `w` further on
    have hhead : Nat.count (fun point => owner ((b, w) :: entries) point = some a) w =
        if b = a then w else 0 := by
      by_cases h : b = a
      · rw [if_pos h]
        refine Nat.count_of_forall fun point hpoint => ?_
        rw [owner, if_pos hpoint, h]
      · rw [if_neg h]
        refine Nat.count_of_forall_not fun point hpoint howner => ?_
        rw [owner, if_pos hpoint] at howner
        exact h (Option.some.inj howner)
    have htail : ∀ point, owner ((b, w) :: entries) (w + point) = owner entries point := by
      intro point
      have hpast : ¬ w + point < w := by omega
      rw [owner, if_neg hpast, Nat.add_sub_cancel_left]
    rw [total_cons, weightOf_cons, Nat.count_add, hhead]
    simp only [htail]
    rw [ih]

end Counting

/-! ## Once round -/

/-- Of as many consecutive counters as the modulus every remainder is met once. -/
theorem count_mod (p : ℕ → Prop) [DecidablePred p] (n c : ℕ) :
    Nat.count (fun k => p ((c + k) % n)) n = Nat.count p n := by
  induction c with
  | zero =>
    have hsame : ∀ m ≤ n, Nat.count (fun k => p ((0 + k) % n)) m = Nat.count p m := by
      intro m
      induction m with
      | zero => exact fun _ => rfl
      | succ m ih =>
        intro hm
        have hself : (0 + m) % n = m := by rw [Nat.zero_add, Nat.mod_eq_of_lt hm]
        rw [Nat.count_succ, Nat.count_succ, ih (Nat.le_of_succ_le hm)]
        simp only [hself]
    exact hsame n (Nat.le_refl n)
  | succ c ih =>
    -- what the later start leaves out at the front it meets at the end
    have hround : (if p ((c + n) % n) then 1 else 0) = if p ((c + 0) % n) then 1 else 0 := by
      simp only [Nat.add_mod_right, Nat.add_zero]
    have hfront := Nat.count_succ' (fun k => p ((c + k) % n)) n
    have hend := Nat.count_succ (fun k => p ((c + k) % n)) n
    have hshift : ∀ k, c + 1 + k = c + (k + 1) := fun k => by omega
    simp only [hshift]
    omega

/-- **A full cycle.**  In as many consecutive calls as the weights make up, a label is met as often as its
    entries weigh. -/
theorem count_cycle [DecidableEq α] (a : α) (entries : List (α × ℕ)) (c : ℕ) :
    Nat.count (fun k => owner entries ((c + k) % total entries) = some a) (total entries) =
      weightOf a entries := by
  rw [count_mod (fun point => owner entries point = some a), count_owner]

/-- The same of the list of what the calls answer. -/
theorem count_map_range [BEq β] [LawfulBEq β] [DecidableEq β] (f : ℕ → β) (b : β) (n : ℕ) :
    ((List.range n).map f).count b = Nat.count (fun k => f k = b) n := by
  rw [List.count_eq_countP, List.countP_map]
  refine List.countP_congr fun k _ => ?_
  show (f k == b) = true ↔ decide (f k = b) = true
  rw [beq_iff_eq, decide_eq_true_eq]

end Cycle
