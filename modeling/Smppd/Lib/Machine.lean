/-
  RUNS of a machine given by a partial step function `step : σ → α → Option σ`.

  A label `a : α` names everything the environment decides at that step (which task moves, what
  the clock reads, what the network answers), so the machine itself is deterministic and EXECUTABLE:
  a run is a list of labels, and `run step s as` is the state it leads to, or `none` when some label
  is not enabled where it stands.  "Every interleaving" is then a quantifier over lists.

  Two proof rules carry every invariant of this development:

  * `run_inv`  — what holds at the start and is kept by every step holds after every run;
  * `meets_inv` — the same for the runs all of whose steps MEET a side condition `ok` on the state
    before the step and the label.  `Meets` is how "as long as no step does X" is said of a run.

  `meets_iff_always` and `steps_iff_meets` are for conditions that are EXACT: they turn an equivalence at
  each step into one about runs, for a property of states and for a property of steps.  What can be decided
  of a step can be decided of a run.

  Nothing here names a program; these rules are all that the other modules use of a run.
-/
import Mathlib.Logic.Basic
import Mathlib.Data.Option.Basic

namespace Machine

variable {σ α : Type*} {step : σ → α → Option σ}

/-! ## Runs -/

/-- The state a list of labels leads to; `none` as soon as one of them is not enabled. -/
def run (step : σ → α → Option σ) : σ → List α → Option σ
  | s, [] => some s
  | s, a :: as => (step s a).bind fun s' => run step s' as

@[simp] theorem run_nil (s : σ) : run step s [] = some s := rfl

theorem run_cons (s : σ) (a : α) (as : List α) :
    run step s (a :: as) = (step s a).bind fun s' => run step s' as := rfl

/-- A run that starts with `a` takes that step and goes on from where it leads. -/
theorem run_cons_eq_some {s s'' : σ} {a : α} {as : List α} :
    run step s (a :: as) = some s'' ↔ ∃ s', step s a = some s' ∧ run step s' as = some s'' := by
  rw [run_cons, Option.bind_eq_some_iff]

/-- Runs compose. -/
theorem run_append (as bs : List α) (s : σ) :
    run step s (as ++ bs) = (run step s as).bind fun s' => run step s' bs := by
  induction as generalizing s with
  | nil => rfl
  | cons a as ih =>
    rw [List.cons_append, run_cons, run_cons]
    cases step s a with
    | none => rfl
    | some s' => exact ih s'

/-! ## The invariant rule -/

/-- **The invariant rule.**  What every step keeps, every run keeps. -/
theorem run_inv {Inv : σ → Prop} (hstep : ∀ s a s', Inv s → step s a = some s' → Inv s')
    {s s' : σ} {as : List α} (h0 : Inv s) (h : run step s as = some s') : Inv s' := by
  induction as generalizing s with
  | nil => cases h; exact h0
  | cons a as ih =>
    obtain ⟨t, ht, hrun⟩ := run_cons_eq_some.mp h
    exact ih (hstep s a t h0 ht) hrun

/-! ## Runs whose steps meet a condition -/

/-- Every step the run takes meets `ok`, a condition on the state before it and its label. -/
def Meets (step : σ → α → Option σ) (ok : σ → α → Prop) : σ → List α → Prop
  | _, [] => True
  | s, a :: as => ok s a ∧ ∀ s', step s a = some s' → Meets step ok s' as

variable {ok : σ → α → Prop}

/-- The first step of a run that meets `ok`. -/
theorem meets_cons {s s' : σ} {a : α} {as : List α} (h : step s a = some s') :
    Meets step ok s (a :: as) ↔ ok s a ∧ Meets step ok s' as := by
  constructor
  · rintro ⟨hok, hrest⟩
    exact ⟨hok, hrest s' h⟩
  · rintro ⟨hok, hrest⟩
    refine ⟨hok, fun t ht => ?_⟩
    obtain rfl : s' = t := Option.some.inj (h.symm.trans ht)
    exact hrest

/-- A condition on the labels alone. -/
theorem meets_of_forall {as : List α} {P : α → Prop} (h : ∀ a ∈ as, P a) (s : σ) :
    Meets step (fun _ a => P a) s as := by
  induction as generalizing s with
  | nil => trivial
  | cons a as ih =>
    refine ⟨h a List.mem_cons_self, fun s' _ => ih (fun b hb => ?_) s'⟩
    exact h b (List.mem_cons_of_mem a hb)

/-- A run that gets to its end meets a condition on the labels alone when each of its labels does. -/
theorem meets_label_iff {as : List α} {P : α → Prop} {s s' : σ} (h : run step s as = some s') :
    Meets step (fun _ a => P a) s as ↔ ∀ a ∈ as, P a := by
  refine ⟨fun hmeets => ?_, fun hall => meets_of_forall hall s⟩
  induction as generalizing s with
  | nil => exact fun a ha => absurd ha List.not_mem_nil
  | cons a as ih =>
    obtain ⟨t, ht, hrun⟩ := run_cons_eq_some.mp h
    rw [List.forall_mem_cons]
    exact ⟨hmeets.1, ih hrun (hmeets.2 t ht)⟩

/-- **The invariant rule under a step condition.** -/
theorem meets_inv {Inv : σ → Prop}
    (hstep : ∀ s a s', Inv s → ok s a → step s a = some s' → Inv s')
    {s s' : σ} {as : List α} (h0 : Inv s) (hm : Meets step ok s as)
    (h : run step s as = some s') : Inv s' := by
  induction as generalizing s with
  | nil => cases h; exact h0
  | cons a as ih =>
    obtain ⟨t, ht, hrun⟩ := run_cons_eq_some.mp h
    exact ih (hstep s a t h0 hm.1 ht) (hm.2 t ht) hrun

/-- A run that meets `ok` splits into a run that does and a continuation that does. -/
theorem meets_append {as bs : List α} {s s' : σ} (h : run step s as = some s') :
    Meets step ok s (as ++ bs) ↔ Meets step ok s as ∧ Meets step ok s' bs := by
  induction as generalizing s with
  | nil => cases h; exact ⟨fun hb => ⟨trivial, hb⟩, fun hb => hb.2⟩
  | cons a as ih =>
    obtain ⟨t, ht, hrun⟩ := run_cons_eq_some.mp h
    rw [List.cons_append, meets_cons ht, meets_cons ht, ih hrun, and_assoc]

/-- **A step condition that is exactly what a property needs**: when each step keeps the property if and
    only if it meets `ok`, a run meets `ok` if and only if the property holds all along it. -/
theorem meets_iff_always {Inv Safe : σ → Prop}
    (hinv : ∀ s a s', Inv s → step s a = some s' → Inv s')
    (hstep : ∀ s a s', Inv s → Safe s → step s a = some s' → (Safe s' ↔ ok s a))
    {s s' : σ} {as : List α} (h0 : Inv s) (hs : Safe s) (hrun : run step s as = some s') :
    Meets step ok s as ↔
      ∀ before after t, as = before ++ after → run step s before = some t → Safe t := by
  induction as generalizing s with
  | nil =>
    refine ⟨fun _ before after t heq hbefore => ?_, fun _ => trivial⟩
    obtain ⟨rfl, -⟩ := List.append_eq_nil_iff.mp heq.symm
    cases hbefore
    exact hs
  | cons a as ih =>
    obtain ⟨t₁, ht₁, hrest⟩ := run_cons_eq_some.mp hrun
    have hsafe := hstep s a t₁ h0 hs ht₁
    rw [meets_cons ht₁]
    constructor
    · rintro ⟨hok, hmeets⟩ before after t heq hbefore
      cases before with
      | nil =>
        cases hbefore
        exact hs
      | cons b before =>
        obtain ⟨rfl, hrest'⟩ := List.cons.inj heq
        obtain ⟨t', ht', hbefore'⟩ := run_cons_eq_some.mp hbefore
        obtain rfl : t₁ = t' := Option.some.inj (ht₁.symm.trans ht')
        exact (ih (hinv s a t₁ h0 ht₁) (hsafe.mpr hok) hrest).mp hmeets before after t hrest' hbefore'
    · intro hall
      have hsafe₁ : Safe t₁ := hall [a] as t₁ rfl (run_cons_eq_some.mpr ⟨t₁, ht₁, rfl⟩)
      refine ⟨hsafe.mp hsafe₁, (ih (hinv s a t₁ h0 ht₁) hsafe₁ hrest).mpr ?_⟩
      intro before after t heq hbefore
      exact hall (a :: before) after t (by rw [heq]; rfl) (run_cons_eq_some.mpr ⟨t₁, ht₁, hbefore⟩)

/-! ## Runs by what their steps do -/

/-- Every step the run takes leads from one state to the next as `P` says. -/
def Steps (step : σ → α → Option σ) (P : σ → σ → Prop) : σ → List α → Prop :=
  Meets step fun s a => ∀ s', step s a = some s' → P s s'

/-- **A step condition that is exactly what a property of steps needs**: when the two agree at every step
    from a state that the invariant allows, they agree on every run. -/
theorem steps_iff_meets {Inv : σ → Prop} {P : σ → σ → Prop}
    (hinv : ∀ s a s', Inv s → ok s a → step s a = some s' → Inv s')
    (hstep : ∀ s a s', Inv s → step s a = some s' → (P s s' ↔ ok s a))
    {s s' : σ} {as : List α} (h0 : Inv s) (hrun : run step s as = some s') :
    Steps step P s as ↔ Meets step ok s as := by
  induction as generalizing s with
  | nil => exact Iff.rfl
  | cons a as ih =>
    obtain ⟨t, ht, hrest⟩ := run_cons_eq_some.mp hrun
    have hfirst : (∀ t', step s a = some t' → P s t') ↔ ok s a := by
      rw [← hstep s a t h0 ht]
      refine ⟨fun hall => hall t ht, fun hP t' ht' => ?_⟩
      obtain rfl : t = t' := Option.some.inj (ht.symm.trans ht')
      exact hP
    unfold Steps at ih ⊢
    rw [meets_cons ht, meets_cons ht, hfirst]
    exact and_congr_right fun hok => ih (hinv s a t h0 hok ht) hrest

/-! ## Deciding -/

/-- What holds of the state a step leads to, if it leads anywhere. -/
instance decidableNext {P : σ → Prop} [DecidablePred P] (s : σ) (a : α) :
    Decidable (∀ s', step s a = some s' → P s') :=
  match step s a with
  | none => isTrue nofun
  | some t => decidable_of_iff (P t) ⟨fun hP _ heq => Option.some.inj heq ▸ hP, fun hall => hall t rfl⟩

/-- A condition on steps that can be decided can be decided of a run. -/
instance decidableMeets [∀ s a, Decidable (ok s a)] :
    (s : σ) → (as : List α) → Decidable (Meets step ok s as)
  | _, [] => isTrue trivial
  | s, a :: as =>
    match h : step s a with
    | none =>
      decidable_of_iff (ok s a)
        ⟨fun hok => ⟨hok, fun _ heq => nomatch h.symm.trans heq⟩, fun hmeets => hmeets.1⟩
    | some t =>
      have := decidableMeets t as
      decidable_of_iff (ok s a ∧ Meets step ok t as) (meets_cons h).symm

instance decidableSteps {P : σ → σ → Prop} [DecidableRel P] (s : σ) (as : List α) :
    Decidable (Steps step P s as) :=
  inferInstanceAs (Decidable (Meets step (fun s a => ∀ s', step s a = some s' → P s s') s as))

end Machine
