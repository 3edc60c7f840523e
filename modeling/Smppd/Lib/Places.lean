/-
  PLACES: things that are handed on, and what is recorded of each.

  A thing has a key, and is in one place at a time.  What is recorded of a key is read by a machine; while the thing
  is somewhere, it knows the state that the machine is in, its STAGE.  `Followed` says so of all places and of the
  whole record, and that a thing disappears only at an end.

  Each lemma is about one thing: it is new, it goes on, it moves, it ends.
-/
import Smppd.Lib.Record
import Mathlib.Logic.Function.Basic

namespace Places

open Machine Record Function

variable {ι τ κ ε σ : Type*} [DecidableEq κ]

/-- How a record is read: what an event is about, and what it does to the stage of it. -/
structure Reading (τ κ ε σ : Type*) where
  key : τ → κ
  stage : τ → σ
  topic : ε → Option κ
  step : σ → ε → Option σ
  start : σ
  ended : σ → Prop
  /-- Nothing comes back to the start. -/
  left : ∀ s e, step s e ≠ some start

variable (r : Reading τ κ ε σ)

/-- The stage that a record tells of. -/
def Reading.told (events : List ε) (k : κ) : Option σ := run r.step r.start (concerning r.topic k events)

/-- What is recorded follows the things: each is in one place, at the stage that is recorded of it; and what has begun
    and not ended is somewhere. -/
structure Followed (place : ι → Option τ) (events : List ε) : Prop where
  alone : ∀ i j x y, place i = some x → place j = some y → r.key x = r.key y → i = j
  told : ∀ i x, place i = some x → r.told events (r.key x) = some (r.stage x)
  begun : ∀ i x, place i = some x → r.stage x ≠ r.start
  kept : ∀ k, r.told events k = some r.start ∨ (∃ s, r.told events k = some s ∧ r.ended s) ∨
    ∃ i x, place i = some x ∧ r.key x = k

variable {r}

theorem told_append_self {events : List ε} {k : κ} {e : ε} {s : σ} (htopic : r.topic e = some k)
    (h : r.told events k = some s) : r.told (events ++ [e]) k = r.step s e := by
  rw [Reading.told, concerning_append, concerning_cons_self htopic, run_append]
  show (r.told events k).bind _ = _
  rw [h]
  exact Option.bind_fun_some _

theorem told_append_ne {events : List ε} {k : κ} {e : ε} (htopic : r.topic e ≠ some k) :
    r.told (events ++ [e]) k = r.told events k := by
  rw [Reading.told, concerning_append, concerning_cons_ne htopic]
  exact congrArg (run r.step r.start) (List.append_nil _)

variable {place : ι → Option τ} {events : List ε}

/-- A stage is recorded of every key. -/
theorem Followed.isSome (h : Followed r place events) (k : κ) : ∃ s, r.told events k = some s := by
  rcases h.kept k with hstart | ⟨s, hs, -⟩ | ⟨i, x, hx, rfl⟩
  · exact ⟨_, hstart⟩
  · exact ⟨s, hs⟩
  · exact ⟨_, h.told i x hx⟩

/-- Where nothing is anywhere, all that has begun has ended. -/
theorem Followed.ended (h : Followed r place events) (hempty : ∀ i, place i = none) (k : κ) :
    ∃ s, r.told events k = some s ∧ (s = r.start ∨ r.ended s) := by
  rcases h.kept k with hstart | ⟨s, hs, hended⟩ | ⟨i, x, hx, -⟩
  · exact ⟨_, hstart, .inl rfl⟩
  · exact ⟨s, hs, .inr hended⟩
  · exact absurd ((hempty i).symm.trans hx) (Option.some_ne_none x).symm

/-- Nothing is anywhere, and nothing is recorded. -/
theorem followed_nil (hempty : ∀ i, place i = none) : Followed r place [] where
  alone i _ x _ hx := absurd ((hempty i).symm.trans hx) (Option.some_ne_none x).symm
  told i x hx := absurd ((hempty i).symm.trans hx) (Option.some_ne_none x).symm
  begun i x hx := absurd ((hempty i).symm.trans hx) (Option.some_ne_none x).symm
  kept _ := .inl rfl

/-- Something is recorded that is about nothing. -/
theorem Followed.aside (h : Followed r place events) {e : ε} (htopic : r.topic e = none) :
    Followed r place (events ++ [e]) := by
  have htold : ∀ k, r.told (events ++ [e]) k = r.told events k := fun k =>
    told_append_ne (by rw [htopic]; exact (Option.some_ne_none k).symm)
  refine ⟨h.alone, fun i x hx => ?_, h.begun, fun k => ?_⟩
  · rw [htold]
    exact h.told i x hx
  · rw [htold]
    exact h.kept k

variable [DecidableEq ι]

/-- A thing moves. -/
theorem Followed.move (h : Followed r place events) {i j : ι} {x : τ} (hi : place i = some x) (hj : place j = none) :
    Followed r (update (update place i none) j (some x)) events := by
  have hne : j ≠ i := by
    rintro rfl
    exact absurd (hj.symm.trans hi) (Option.some_ne_none x).symm
  -- who is where now was there before, or is `x`
  have hback : ∀ i' y, update (update place i none) j (some x) i' = some y →
      (i' = j ∧ y = x) ∨ (i' ≠ j ∧ i' ≠ i ∧ place i' = some y) := by
    intro i' y hy
    by_cases hi' : i' = j
    · rw [hi', update_self] at hy
      exact .inl ⟨hi', (Option.some.inj hy).symm⟩
    · rw [update_of_ne hi'] at hy
      by_cases hii : i' = i
      · rw [hii, update_self] at hy
        exact absurd hy.symm (Option.some_ne_none y)
      · rw [update_of_ne hii] at hy
        exact .inr ⟨hi', hii, hy⟩
  refine ⟨fun i₁ i₂ y z hy hz hkey => ?_, fun i' y hy => ?_, fun i' y hy => ?_, fun k => ?_⟩
  · rcases hback i₁ y hy with ⟨rfl, rfl⟩ | ⟨-, hne₁, hold₁⟩ <;>
      rcases hback i₂ z hz with ⟨rfl, rfl⟩ | ⟨-, hne₂, hold₂⟩
    · rfl
    · exact absurd (h.alone i i₂ _ z hi hold₂ hkey).symm hne₂
    · exact absurd (h.alone i₁ i y _ hold₁ hi hkey) hne₁
    · exact h.alone i₁ i₂ y z hold₁ hold₂ hkey
  · rcases hback i' y hy with ⟨-, rfl⟩ | ⟨-, -, hy⟩
    · exact h.told i _ hi
    · exact h.told i' y hy
  · rcases hback i' y hy with ⟨-, rfl⟩ | ⟨-, -, hy⟩
    · exact h.begun i _ hi
    · exact h.begun i' y hy
  · rcases h.kept k with hstart | hended | ⟨i', y, hy, hkey⟩
    · exact .inl hstart
    · exact .inr (.inl hended)
    · by_cases hii : i' = i
      · obtain rfl : y = x := Option.some.inj (hy.symm.trans (hii ▸ hi))
        exact .inr (.inr ⟨j, y, update_self .., hkey⟩)
      · have hij : i' ≠ j := by
          rintro rfl
          exact absurd (hj.symm.trans hy) (Option.some_ne_none y).symm
        refine .inr (.inr ⟨i', y, ?_, hkey⟩)
        rw [update_of_ne hij, update_of_ne hii]
        exact hy

/-- What is recorded of one key, where a place is filled, or emptied. -/
theorem Followed.record (h : Followed r place events) {i : ι} {e : ε} {k : κ} {s : σ} {new : Option τ}
    (htopic : r.topic e = some k) (htold : r.told (events ++ [e]) k = some s)
    (hothers : ∀ j y, j ≠ i → place j = some y → r.key y ≠ k) (hold : ∀ y, place i = some y → r.key y = k)
    (hnew : ∀ y, new = some y → r.key y = k ∧ r.stage y = s) (hs : s ≠ r.start) (hend : new = none → r.ended s) :
    Followed r (update place i new) (events ++ [e]) := by
  have hsame : ∀ k', k' ≠ k → r.told (events ++ [e]) k' = r.told events k' := fun k' hk' =>
    told_append_ne (by rw [htopic]; exact fun heq => hk' (Option.some.inj heq).symm)
  have hback : ∀ j y, update place i new j = some y → (j = i ∧ new = some y) ∨ (j ≠ i ∧ place j = some y) := by
    intro j y hy
    by_cases hj : j = i
    · rw [hj, update_self] at hy
      exact .inl ⟨hj, hy⟩
    · rw [update_of_ne hj] at hy
      exact .inr ⟨hj, hy⟩
  refine ⟨fun i₁ i₂ y z hy hz hkey => ?_, fun j y hy => ?_, fun j y hy => ?_, fun k' => ?_⟩
  · rcases hback i₁ y hy with ⟨rfl, hy'⟩ | ⟨hne₁, hy'⟩ <;> rcases hback i₂ z hz with ⟨rfl, hz'⟩ | ⟨hne₂, hz'⟩
    · rfl
    · exact absurd (hkey.symm.trans (hnew y hy').1) (hothers i₂ z hne₂ hz')
    · exact absurd (hkey.trans (hnew z hz').1) (hothers i₁ y hne₁ hy')
    · exact h.alone i₁ i₂ y z hy' hz' hkey
  · rcases hback j y hy with ⟨rfl, hy'⟩ | ⟨hne, hy'⟩
    · obtain ⟨hkey, hstage⟩ := hnew y hy'
      rw [hkey, hstage]
      exact htold
    · rw [hsame _ (hothers j y hne hy')]
      exact h.told j y hy'
  · rcases hback j y hy with ⟨-, hy'⟩ | ⟨-, hy'⟩
    · rw [(hnew y hy').2]
      exact hs
    · exact h.begun j y hy'
  · by_cases hk : k' = k
    · subst hk
      cases hnone : new with
      | none => exact .inr (.inl ⟨s, htold, hend hnone⟩)
      | some y => exact .inr (.inr ⟨i, y, update_self .., (hnew y hnone).1⟩)
    · rw [hsame k' hk]
      rcases h.kept k' with hstart | hended | ⟨j, y, hy, hkey⟩
      · exact .inl hstart
      · exact .inr (.inl hended)
      · have hne : j ≠ i := by
          rintro rfl
          exact hk (hkey.symm.trans (hold y hy))
        refine .inr (.inr ⟨j, y, ?_, hkey⟩)
        rw [update_of_ne hne]
        exact hy

/-- A thing goes on, or ends. -/
theorem Followed.next (h : Followed r place events) {i : ι} {x : τ} {e : ε} {s : σ} {new : Option τ}
    (hi : place i = some x) (htopic : r.topic e = some (r.key x)) (hstep : r.step (r.stage x) e = some s)
    (hnew : ∀ y, new = some y → r.key y = r.key x ∧ r.stage y = s) (hend : new = none → r.ended s) :
    Followed r (update place i new) (events ++ [e]) := by
  have htold : r.told (events ++ [e]) (r.key x) = some s := (told_append_self htopic (h.told i x hi)).trans hstep
  have hs : s ≠ r.start := fun heq => r.left _ _ (heq ▸ hstep)
  refine h.record htopic htold (fun j y hne hy hkey => hne (h.alone j i y x hy hi hkey)) (fun y hy => ?_) hnew hs hend
  rw [Option.some.inj (hy.symm.trans hi)]

/-- A thing is new, and is put in an empty place. -/
theorem Followed.begin (h : Followed r place events) {i : ι} {x : τ} {e : ε} (hi : place i = none)
    (htopic : r.topic e = some (r.key x)) (hfresh : ∀ e' ∈ events, r.topic e' ≠ some (r.key x))
    (hstep : r.step r.start e = some (r.stage x)) :
    Followed r (update place i (some x)) (events ++ [e]) := by
  have hstart : r.told events (r.key x) = some r.start := by
    have hnone : concerning r.topic (r.key x) events = [] :=
      List.filter_eq_nil_iff.mpr fun e' he' heq => hfresh e' he' (of_decide_eq_true heq)
    rw [Reading.told, hnone]
    rfl
  have htold : r.told (events ++ [e]) (r.key x) = some (r.stage x) := (told_append_self htopic hstart).trans hstep
  have hs : r.stage x ≠ r.start := fun heq => r.left _ _ (heq ▸ hstep)
  refine h.record htopic htold (fun j y _ hy hkey => ?_) (fun y hy => ?_) (fun y hy => ?_) hs
    (fun hnone => absurd hnone (Option.some_ne_none x))
  · -- nothing that is somewhere has this key, for it would have begun
    have hy' := h.told j y hy
    rw [hkey, hstart] at hy'
    exact h.begun j y hy (Option.some.inj hy').symm
  · exact absurd (hi.symm.trans hy) (Option.some_ne_none y).symm
  · obtain rfl := Option.some.inj hy
    exact ⟨rfl, rfl⟩

end Places
