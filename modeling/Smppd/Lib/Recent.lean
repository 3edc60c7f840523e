/-
  RECENT items: logs that forget their oldest entries to make room.

  Before an item is appended, some are dropped from the front, and how many depends on the length alone.  So a log
  is at any time the last few items that were appended to it, and how many is a function of how many there were:
  `foldl_push`.  For a RING, which drops one when it is full, it is as many as fit.  A log that loses a CHUNK once it is
  too long is pushed to in the same way.
-/
import Mathlib.Data.List.DropRight
import Mathlib.Data.List.Induction

namespace Recent

variable {α : Type*}

/-- Append an item, when some have been dropped. -/
def push (drops : Nat → Nat) (log : List α) (x : α) : List α := log.drop (drops log.length) ++ [x]

/-- The length of the log, when so many items have been appended. -/
def size (drops : Nat → Nat) : Nat → Nat
  | 0 => 0
  | n + 1 => size drops n - drops (size drops n) + 1

theorem length_push (drops : Nat → Nat) (log : List α) (x : α) :
    (push drops log x).length = log.length - drops log.length + 1 := by
  rw [push, List.length_append, List.length_drop]
  rfl

theorem size_le (drops : Nat → Nat) (n : Nat) : size drops n ≤ n := by
  induction n with
  | zero => exact Nat.le_refl 0
  | succ n ih => exact Nat.succ_le_succ (Nat.le_trans (Nat.sub_le _ _) ih)

/-- **A log holds the last few items.** -/
theorem foldl_push (drops : Nat → Nat) (xs : List α) :
    xs.foldl (push drops) [] = xs.drop (xs.length - size drops xs.length) := by
  induction xs using List.reverseRecOn with
  | nil => rfl
  | append_singleton xs x ih =>
    have hsize := size_le drops xs.length
    have hlength : (xs.drop (xs.length - size drops xs.length)).length = size drops xs.length := by
      rw [List.length_drop]
      omega
    have hdrop : (xs ++ [x]).length - size drops (xs ++ [x]).length =
        xs.length - size drops xs.length + min (drops (size drops xs.length)) (size drops xs.length) := by
      rw [List.length_append, List.length_singleton, size]
      omega
    have hle : xs.length - size drops xs.length + min (drops (size drops xs.length)) (size drops xs.length) ≤
        xs.length := by
      omega
    rw [List.foldl_append, ih, hdrop, List.drop_append_of_le_length hle, List.foldl_cons, List.foldl_nil, push,
      hlength, ← List.drop_drop]
    congr 1
    by_cases hmin : drops (size drops xs.length) ≤ size drops xs.length
    · rw [Nat.min_eq_left hmin]
    · have hmin' : size drops xs.length ≤ drops (size drops xs.length) := Nat.le_of_not_le hmin
      rw [Nat.min_eq_right hmin', List.drop_eq_nil_of_le (Nat.le_trans (Nat.le_of_eq hlength) hmin'),
        List.drop_eq_nil_of_le (Nat.le_of_eq hlength)]

/-! ## Rings -/

/-- One is dropped when the log is full. -/
def ring (capacity : Nat) (n : Nat) : Nat := if capacity ≤ n then 1 else 0

/-- A ring has as many as fit; there is always room for one. -/
theorem size_ring (capacity n : Nat) : size (ring capacity) n = min n (max 1 capacity) := by
  induction n with
  | zero => exact (Nat.zero_min _).symm
  | succ n ih =>
    rw [size, ih, ring]
    split <;> omega

/-- **A ring that goes on** holds the last of what it held and what was appended. -/
theorem foldl_push_ring {capacity : Nat} {log : List α} (h : log.length ≤ max 1 capacity) (xs : List α) :
    xs.foldl (push (ring capacity)) log = (log ++ xs).rtake (max 1 capacity) := by
  have hfresh (ys : List α) : ys.foldl (push (ring capacity)) [] = ys.rtake (max 1 capacity) := by
    have hdrop : ys.length - min ys.length (max 1 capacity) = ys.length - max 1 capacity := by omega
    rw [foldl_push, size_ring, hdrop, List.rtake]
  -- what fits into a ring is what the ring makes of it
  have hlog : log.foldl (push (ring capacity)) [] = log := by
    rw [hfresh, List.rtake, Nat.sub_eq_zero_of_le h, List.drop_zero]
  rw [← hfresh, List.foldl_append, hlog]

/-! ## Chunks -/

/-- A chunk is dropped when the log is over its limit. -/
def chunk (limit amount : Nat) (n : Nat) : Nat := if limit < n then amount else 0

end Recent
