/-
  TRANSDUCERS: machines that answer every input.

  `play step s as` feeds the inputs `as` to the machine in state `s`, one after the other; it gives the
  answers and the state they leave.  Two machines over the same inputs are compared by a relation between
  their states: if related states answer alike and lead to related states (`Simulates`), the machines
  answer alike for ever.  Machines that do not always answer alike are compared along with an observer of the
  inputs, which says at each one whether they do (`play_eq_iff_along`).  `timed` gives a machine a clock that
  only goes forward.
-/
import Mathlib.Data.List.Basic

namespace Transducer

variable {σ τ α β γ δ : Type*}

/-- The answers to a list of inputs, and the state they leave. -/
def play (step : σ → α → β × σ) : σ → List α → List β × σ
  | s, [] => ([], s)
  | s, a :: as =>
    let (bs, s') := play step (step s a).2 as
    ((step s a).1 :: bs, s')

theorem play_cons (step : σ → α → β × σ) (s : σ) (a : α) (as : List α) :
    play step s (a :: as) =
      ((step s a).1 :: (play step (step s a).2 as).1, (play step (step s a).2 as).2) := rfl

/-- The inputs may be fed in two parts. -/
theorem play_append (step : σ → α → β × σ) (s : σ) (as more : List α) :
    play step s (as ++ more) =
      ((play step s as).1 ++ (play step (play step s as).2 more).1, (play step (play step s as).2 more).2) := by
  induction as generalizing s with
  | nil => rfl
  | cons a as ih => rw [List.cons_append, play_cons, play_cons, ih, List.cons_append]

/-- What the steps of a run give, one list after the other: the last step adds what it gives where the others have
    led. -/
theorem gathered_append (next : σ → α → σ) (given : σ → α → List β) (gathered : σ → List α → List β)
    (hnil : ∀ s, gathered s [] = []) (hcons : ∀ s a as, gathered s (a :: as) = given s a ++ gathered (next s a) as)
    (s : σ) (as : List α) (a : α) : gathered s (as ++ [a]) = gathered s as ++ given (as.foldl next s) a := by
  induction as generalizing s with
  | nil => rw [List.nil_append, hcons, hnil, hnil, List.append_nil, List.nil_append, List.foldl_nil]
  | cons first as ih => rw [List.cons_append, hcons, hcons, ih, List.append_assoc, List.foldl_cons]

/-- Related states answer alike, and lead to related states. -/
def Simulates (step : σ → α → β × σ) (step' : τ → α → β × τ) (R : σ → τ → Prop) : Prop :=
  ∀ s t a, R s t → (step s a).1 = (step' t a).1 ∧ R (step s a).2 (step' t a).2

variable {step : σ → α → β × σ} {step' : τ → α → β × τ} {R : σ → τ → Prop}

/-- **The simulation rule.**  Machines in related states answer every list of inputs alike, and end in
    related states. -/
theorem Simulates.play (h : Simulates step step' R) {s : σ} {t : τ} (hR : R s t) (as : List α) :
    (play step s as).1 = (Transducer.play step' t as).1 ∧
      R (Transducer.play step s as).2 (Transducer.play step' t as).2 := by
  induction as generalizing s t with
  | nil => exact ⟨rfl, hR⟩
  | cons a as ih =>
    obtain ⟨hanswer, hnext⟩ := h s t a hR
    obtain ⟨hanswers, hend⟩ := ih hnext
    rw [play_cons, play_cons]
    exact ⟨by rw [hanswer, hanswers], hend⟩

/-! ## Agreement for a while -/

variable {κ : Type*}

/-- An observer that is told every input finds each of them `good` in its turn. -/
def Along (next : κ → α → κ) (good : κ → α → Prop) : κ → List α → Prop
  | _, [] => True
  | k, a :: as => good k a ∧ Along next good (next k a) as

instance decidableAlong (next : κ → α → κ) (good : κ → α → Prop) [∀ k a, Decidable (good k a)] :
    (k : κ) → (as : List α) → Decidable (Along next good k as)
  | _, [] => isTrue trivial
  | k, a :: as =>
    have := decidableAlong next good (next k a) as
    inferInstanceAs (Decidable (_ ∧ _))

/-- **Agreement, exactly.**  If related machines answer an input alike just when the observer finds it good, and
    are related afterwards when it does, then they answer a list of inputs alike just when every one is good. -/
theorem play_eq_iff_along {next : κ → α → κ} {good : κ → α → Prop} {R : σ → τ → κ → Prop}
    (hanswer : ∀ s t k a, R s t k → ((step s a).1 = (step' t a).1 ↔ good k a))
    (hnext : ∀ s t k a, R s t k → good k a → R (step s a).2 (step' t a).2 (next k a))
    {s : σ} {t : τ} {k : κ} (hR : R s t k) (as : List α) :
    (play step s as).1 = (play step' t as).1 ↔ Along next good k as := by
  induction as generalizing s t k with
  | nil => exact iff_of_true rfl trivial
  | cons a as ih =>
    rw [play_cons, play_cons, List.cons.injEq, hanswer s t k a hR]
    exact and_congr_right fun hgood => ih (hnext s t k a hR hgood)

/-- **Agreement as long as every input is good**, in what `f` says of the answers. -/
theorem play_map_eq_of_along {next : κ → α → κ} {good : κ → α → Prop} {R : σ → τ → κ → Prop} {f : β → γ}
    (hstep : ∀ s t k a, R s t k → good k a →
      f (step s a).1 = f (step' t a).1 ∧ R (step s a).2 (step' t a).2 (next k a))
    {s : σ} {t : τ} {k : κ} (hR : R s t k) {as : List α} (halong : Along next good k as) :
    (play step s as).1.map f = (play step' t as).1.map f ∧
      R (play step s as).2 (play step' t as).2 (as.foldl next k) := by
  induction as generalizing s t k with
  | nil => exact ⟨rfl, hR⟩
  | cons a as ih =>
    obtain ⟨hanswer, hnext⟩ := hstep s t k a hR halong.1
    obtain ⟨hanswers, hend⟩ := ih hnext halong.2
    rw [play_cons, play_cons, List.map_cons, List.map_cons, hanswer, hanswers]
    exact ⟨rfl, hend⟩

/-! ## Clocks -/

/-- A machine whose steps look at the clock, with its clock: an input comes after some time. -/
def timed {Time Span : Type*} (later : Time → Span → Time) (step : Time → σ → α → β × σ) :
    σ × Time → Span × α → β × (σ × Time)
  | (s, now), (d, a) =>
    let (b, s') := step (later now d) s a
    (b, s', later now d)

end Transducer
