/-
  WATCH CHANNELS: one value, and receivers that are told of its changes.

  A receiver remembers the version it has seen last.  It is created with the current version as SEEN, so
  it waits for the next change and never hears of the ones before; and of several changes it hears once.
-/
import Mathlib.Order.Basic

/-- A watched value and how many times it has been replaced. -/
structure Watch (α : Type*) where
  value : α
  version : Nat := 0

namespace Watch

variable {α : Type*}

/-- Replace the value, and notify. -/
def sendReplace (w : Watch α) (a : α) : Watch α := ⟨a, w.version + 1⟩

@[simp] theorem sendReplace_value (w : Watch α) (a : α) : (w.sendReplace a).value = a := rfl

@[simp] theorem sendReplace_version (w : Watch α) (a : α) :
    (w.sendReplace a).version = w.version + 1 := rfl

/-- What a new receiver has seen. -/
def subscribe (w : Watch α) : Nat := w.version

/-- A receiver that has seen this version is told of a change. -/
def Changed (w : Watch α) (seen : Nat) : Prop := seen < w.version

instance (w : Watch α) (seen : Nat) : Decidable (w.Changed seen) :=
  inferInstanceAs (Decidable (seen < w.version))

/-- A new receiver waits. -/
theorem not_changed_subscribe (w : Watch α) : ¬ w.Changed w.subscribe := Nat.lt_irrefl w.version

/-- Whoever has subscribed before a change is told of it. -/
theorem changed_sendReplace {w : Watch α} {seen : Nat} (h : seen ≤ w.version) (a : α) :
    (w.sendReplace a).Changed seen := Nat.lt_succ_of_le h

/-- A change that a receiver has not taken note of stays one. -/
theorem Changed.mono {w w' : Watch α} {seen : Nat} (h : w.Changed seen)
    (hle : w.version ≤ w'.version) : w'.Changed seen := Nat.lt_of_lt_of_le h hle

end Watch
