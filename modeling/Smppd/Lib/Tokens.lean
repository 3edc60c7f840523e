/-
  TOKENS handed around by agents over a log.

  An agent holds at most one token; `carried` is the multiset of the tokens a finite set of agents
  holds.  A log is a list of events of which some carry a token for a reader; `unread` is the multiset
  of the tokens that the reader has not come to yet.  The lemmas say how the two change when a token
  moves, so that "no token is lost or doubled" is a sum that stays the same.
-/
import Mathlib.Algebra.BigOperators.Group.Finset.Piecewise
import Mathlib.Algebra.Order.Group.Multiset

namespace Tokens

variable {ι τ ε : Type*}

/-! ## Agents -/

/-- The token an agent holds, as a multiset. -/
def held (g : Option τ) : Multiset τ := g.toList

@[simp] theorem held_none : held (none : Option τ) = 0 := rfl

@[simp] theorem held_some (e : τ) : held (some e) = {e} := rfl

/-- The tokens held by the agents in `ts`. -/
def carried (ts : Finset ι) (γ : ι → Option τ) : Multiset τ := ∑ t ∈ ts, held (γ t)

/-- Nobody holds anything. -/
theorem carried_eq_zero {ts : Finset ι} {γ : ι → Option τ} (h : ∀ t ∈ ts, γ t = none) :
    carried ts γ = 0 := by
  refine Finset.sum_eq_zero fun t ht => ?_
  rw [h t ht, held_none]

variable [DecidableEq ι]

/-- An agent changes what it holds. -/
theorem carried_update {ts : Finset ι} {t : ι} (ht : t ∈ ts) (γ : ι → Option τ) (g : Option τ) :
    carried ts (Function.update γ t g) = held g + ∑ t' ∈ ts \ {t}, held (γ t') := by
  have hupdate : (fun t' => held (Function.update γ t g t')) =
      Function.update (fun t' => held (γ t')) t (held g) := by
    funext t'
    by_cases h : t' = t
    · rw [h, Function.update_self, Function.update_self]
    · rw [Function.update_of_ne h, Function.update_of_ne h]
  unfold carried
  rw [hupdate, Finset.sum_update_of_mem ht]

/-- What one agent holds, and what the others hold. -/
theorem carried_eq {ts : Finset ι} {t : ι} (ht : t ∈ ts) (γ : ι → Option τ) :
    carried ts γ = held (γ t) + ∑ t' ∈ ts \ {t}, held (γ t') := by
  conv_lhs => rw [← Function.update_eq_self t γ]
  exact carried_update ht γ (γ t)

/-- An agent with empty hands is given a token. -/
theorem carried_take {ts : Finset ι} {t : ι} (ht : t ∈ ts) {γ : ι → Option τ} (h : γ t = none)
    (e : τ) : carried ts (Function.update γ t (some e)) = carried ts γ + {e} := by
  rw [carried_update ht, carried_eq ht γ, h, held_none, held_some, zero_add, add_comm]

/-- An agent gives its token away. -/
theorem carried_drop {ts : Finset ι} {t : ι} (ht : t ∈ ts) {γ : ι → Option τ} {e : τ}
    (h : γ t = some e) : carried ts γ = carried ts (Function.update γ t none) + {e} := by
  rw [carried_update ht, carried_eq ht γ, h, held_none, held_some, zero_add, add_comm]

/-- A new agent with empty hands. -/
theorem carried_insert {ts : Finset ι} {t : ι} (ht : t ∉ ts) {γ : ι → Option τ} (h : γ t = none) :
    carried (insert t ts) γ = carried ts γ := by
  unfold carried
  rw [Finset.sum_insert ht, h, held_none, zero_add]

/-! ## Readers of a log -/

/-- The tokens for a reader in what it has not read, from position `k` on. -/
def unread (takes : ε → Option τ) (log : List ε) (k : Nat) : Multiset τ :=
  (log.drop k).filterMap takes

/-- An event is appended to the log. -/
theorem unread_append (takes : ε → Option τ) {log : List ε} {k : Nat} (hk : k ≤ log.length)
    (ev : ε) : unread takes (log ++ [ev]) k = unread takes log k + held (takes ev) := by
  unfold unread
  rw [List.drop_append_of_le_length hk, List.filterMap_append, ← Multiset.coe_add]
  congr 1

/-- The reader reads one event. -/
theorem unread_next (takes : ε → Option τ) {log : List ε} {k : Nat} {ev : ε}
    (h : log[k]? = some ev) : unread takes log k = unread takes log (k + 1) + held (takes ev) := by
  obtain ⟨hk, hev⟩ := List.getElem?_eq_some_iff.mp h
  unfold unread
  rw [List.drop_eq_getElem_cons hk, hev]
  cases ht : takes ev with
  | none => rw [List.filterMap_cons_none ht, held_none, add_zero]
  | some e =>
    rw [List.filterMap_cons_some ht, held_some, ← Multiset.cons_coe, ← Multiset.singleton_add,
      add_comm]

/-- A reader that has come to the end. -/
theorem unread_end (takes : ε → Option τ) (log : List ε) : unread takes log log.length = 0 := by
  unfold unread
  rw [List.drop_length]
  rfl

end Tokens
