/-
  A BROADCAST CHANNEL over a ring.

  The channel keeps the last `size` values that were sent; every receiver has its own position.  The
  channel is modelled by the list of ALL values sent, of which the ring holds the last `size`: sending
  onto a full ring overwrites the value at `log.length - size`, also when a receiver has not come to
  it.  Such a receiver is told how many values it missed, and goes on with the oldest one there is.

  `Keeps P` says that a receiver has taken, or still can take, every value with `P` that was sent
  since it subscribed.  Receiving never breaks it; sending breaks it exactly when the value overwritten
  is one with `P` that the receiver has not come to (`send_keeps_iff`).
-/
import Mathlib.Data.List.Basic

namespace Broadcast

variable {ε : Type*}

/-! ## Receivers -/

/-- A receiver: where it subscribed, where it is, and the positions of the values it was given. -/
structure Receiver where
  since : Nat
  next : Nat
  taken : List Nat

/-- A new receiver sees what is sent from now on. -/
def subscribe (log : List ε) : Receiver := ⟨log.length, log.length, []⟩

/-- What a receiver is told. -/
inductive Received (ε : Type*) where
  | empty
  | lagged (missed : Nat)
  | ok (value : ε)

/-- Receive: the value at the receiver's position; or, when that has been overwritten, the number of
    values missed, with the receiver moved to the oldest value in the ring. -/
def recv (size : Nat) (log : List ε) (r : Receiver) : Received ε × Receiver :=
  if r.next < log.length - size then
    (.lagged (log.length - size - r.next), { r with next := log.length - size })
  else
    match log[r.next]? with
    | none => (.empty, r)
    | some value => (.ok value, { r with next := r.next + 1, taken := r.taken ++ [r.next] })

/-- What a receiver has been given lies before it. -/
structure Receiver.WF (log : List ε) (r : Receiver) : Prop where
  next : r.next ≤ log.length
  taken : ∀ i ∈ r.taken, i < r.next

variable {size : Nat} {log : List ε} {r : Receiver}

theorem wf_subscribe (log : List ε) : (subscribe log).WF log :=
  ⟨Nat.le_refl _, fun _ h => nomatch h⟩

theorem Receiver.WF.send (h : r.WF log) (value : ε) : r.WF (log ++ [value]) := by
  refine ⟨?_, h.taken⟩
  rw [List.length_append, List.length_singleton]
  have := h.next
  omega

/-- **What receiving does**: a jump over what was overwritten, nothing, or one value. -/
theorem recv_cases (size : Nat) (log : List ε) (r : Receiver) :
    (r.next < log.length - size ∧
      recv size log r =
        (.lagged (log.length - size - r.next), { r with next := log.length - size })) ∨
    recv size log r = (.empty, r) ∨
    ∃ value, log[r.next]? = some value ∧
      recv size log r =
        (.ok value, { r with next := r.next + 1, taken := r.taken ++ [r.next] }) := by
  unfold recv
  split
  · rename_i hlag
    exact Or.inl ⟨hlag, rfl⟩
  · cases hget : log[r.next]? with
    | none => exact Or.inr (Or.inl rfl)
    | some value => exact Or.inr (Or.inr ⟨value, rfl, rfl⟩)

theorem Receiver.WF.recv (h : r.WF log) (size : Nat) : (recv size log r).2.WF log := by
  rcases recv_cases size log r with ⟨hlag, heq⟩ | heq | ⟨value, hget, heq⟩
  · rw [heq]
    refine ⟨Nat.sub_le _ _, fun i hi => ?_⟩
    have := h.taken i hi
    show i < log.length - size
    omega
  · rw [heq]
    exact h
  · rw [heq]
    obtain ⟨hlt, -⟩ := List.getElem?_eq_some_iff.mp hget
    refine ⟨hlt, fun i hi => ?_⟩
    show i < r.next + 1
    rcases List.mem_append.mp hi with hold | hnew
    · have := h.taken i hold
      omega
    · rw [List.mem_singleton.mp hnew]
      omega

/-! ## Nothing is lost -/

/-- Every value with `P` sent since the receiver subscribed has been taken, or is in the ring and
    still to come. -/
def Keeps (P : ε → Prop) (size : Nat) (log : List ε) (r : Receiver) : Prop :=
  ∀ i value, log[i]? = some value → P value → r.since ≤ i →
    i ∈ r.taken ∨ (r.next ≤ i ∧ log.length ≤ i + size)

/-- The value that the next one sent overwrites is not one with `P` that the receiver has to come to. -/
def Room (P : ε → Prop) (size : Nat) (log : List ε) (r : Receiver) : Prop :=
  ∀ i value, log[i]? = some value → P value → r.since ≤ i → log.length = i + size → i < r.next

variable {P : ε → Prop}

theorem keeps_subscribe (P : ε → Prop) (size : Nat) (log : List ε) :
    Keeps P size log (subscribe log) := by
  intro i value hget _ hsince
  obtain ⟨hlt, -⟩ := List.getElem?_eq_some_iff.mp hget
  change log.length ≤ i at hsince
  omega

/-- Receiving loses nothing: what it jumps over was lost before. -/
theorem Keeps.recv (h : Keeps P size log r) : Keeps P size log (recv size log r).2 := by
  rcases recv_cases size log r with ⟨hlag, heq⟩ | heq | ⟨value, hget, heq⟩
  · rw [heq]
    intro i value hget hP hsince
    rcases h i value hget hP hsince with htaken | ⟨hnext, hring⟩
    · exact Or.inl htaken
    · refine Or.inr ⟨?_, hring⟩
      show log.length - size ≤ i
      omega
  · rw [heq]
    exact h
  · rw [heq]
    intro i value' hget' hP hsince
    rcases h i value' hget' hP hsince with htaken | ⟨hnext, hring⟩
    · exact Or.inl (List.mem_append_left _ htaken)
    · by_cases hi : i = r.next
      · refine Or.inl (List.mem_append_right _ ?_)
        rw [hi]
        exact List.mem_singleton_self _
      · refine Or.inr ⟨?_, hring⟩
        show r.next + 1 ≤ i
        omega

/-- **Sending keeps everything exactly when it overwrites nothing that is still needed.** -/
theorem send_keeps_iff (hsize : 0 < size) (hwf : r.WF log) (h : Keeps P size log r) (value : ε) :
    Keeps P size (log ++ [value]) r ↔ Room P size log r := by
  have hlength : (log ++ [value]).length = log.length + 1 := by
    rw [List.length_append, List.length_singleton]
  constructor
  · intro hsent i v hget hP hsince hfull
    obtain ⟨hlt, -⟩ := List.getElem?_eq_some_iff.mp hget
    have hget' : (log ++ [value])[i]? = some v := by
      rw [List.getElem?_append_left hlt]
      exact hget
    rcases hsent i v hget' hP hsince with htaken | ⟨-, hring⟩
    · exact hwf.taken i htaken
    · rw [hlength] at hring
      omega
  · intro hroom i v hget hP hsince
    rw [hlength]
    by_cases hlt : i < log.length
    · rw [List.getElem?_append_left hlt] at hget
      rcases h i v hget hP hsince with htaken | ⟨hnext, hring⟩
      · exact Or.inl htaken
      · have hnot : log.length ≠ i + size := by
          intro hfull
          have := hroom i v hget hP hsince hfull
          omega
        exact Or.inr ⟨hnext, by omega⟩
    · -- the value just sent
      have hnext := hwf.next
      exact Or.inr ⟨by omega, by omega⟩

end Broadcast
