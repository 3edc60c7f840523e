/-
  PROGRAMS as trees of calls.

  `Prog Op Res α` is a computation that issues calls `op : Op`, is resumed with an answer of type
  `Res op`, and finally returns an `α`.  It is a monad, so the body of an asynchronous function is
  written as the `do` block it is in the source, and the SAME body is read in two ways:

  * `exec` runs it alone, call after call, against a handler, and `alone` does where nothing around it
    changes meanwhile;
  * `advance` makes one call of it, which is how a scheduler interleaves many bodies over one
    shared state: between two calls anything may happen.

  A handler sees an environment `ε` at every call: what the clock reads, what the network answers.

  Reasoning about a body is by `wp`, a weakest precondition over a GHOST value `g : G` that says
  what the body owes or holds.  A specification `π` gives each call its predicate transformer;
  `wp_bind` takes a body apart at its `do` steps, and `Reaches.wp` reads off what a body is about to
  do after the calls it has made, whatever it was answered.  Reasoning about many bodies is by ONE rule,
  `Pledged.advance`: when the handler keeps a global invariant that relates the shared state to the
  ghosts of all bodies, every interleaving does.
-/
import Mathlib.Logic.Function.Basic
import Mathlib.Data.Option.Basic

/-- A computation that issues calls `op` and is resumed with answers `Res op`. -/
inductive Prog (Op : Type) (Res : Op → Type) (α : Type) : Type where
  | ret (a : α)
  | call (op : Op) (k : Res op → Prog Op Res α)

namespace Prog

variable {Op : Type} {Res : Op → Type} {α β : Type}

/-- Run `p`, then what `f` makes of its result. -/
def bind : Prog Op Res α → (α → Prog Op Res β) → Prog Op Res β
  | .ret a, f => f a
  | .call op k, f => .call op fun r => (k r).bind f

instance : Monad (Prog Op Res) where
  pure := .ret
  bind := bind

/-- A single call. -/
def request (op : Op) : Prog Op Res (Res op) := .call op .ret

@[simp] theorem pure_eq (a : α) : (pure a : Prog Op Res α) = .ret a := rfl

@[simp] theorem ret_bind (a : α) (f : α → Prog Op Res β) : (ret a >>= f) = f a := rfl

@[simp] theorem call_bind (op : Op) (k : Res op → Prog Op Res α) (f : α → Prog Op Res β) :
    (call op k >>= f) = call op fun r => k r >>= f := rfl

@[simp] theorem request_bind (op : Op) (f : Res op → Prog Op Res β) :
    (request op >>= f) = call op f := rfl

/-! ## Running a program alone -/

variable {ε σ : Type}

/-- What a call answers and what it leaves, in the surroundings `e`. -/
abbrev Handler (Op : Type) (Res : Op → Type) (ε σ : Type) := ε → (op : Op) → σ → Res op × σ

/-- Run to the end; the `i`-th call meets the environment `env i`.  Returns the environments left. -/
def exec (h : Handler Op Res ε σ) : Prog Op Res α → (Nat → ε) → σ → α × σ × (Nat → ε)
  | .ret a, env, s => (a, s, env)
  | .call op k, env, s => (k (h (env 0) op s).1).exec h (fun i => env (i + 1)) (h (env 0) op s).2

@[simp] theorem exec_ret (h : Handler Op Res ε σ) (a : α) (env : Nat → ε) (s : σ) :
    (ret a : Prog Op Res α).exec h env s = (a, s, env) := rfl

@[simp] theorem exec_call (h : Handler Op Res ε σ) (op : Op) (k : Res op → Prog Op Res α)
    (env : Nat → ε) (s : σ) :
    (call op k).exec h env s =
      (k (h (env 0) op s).1).exec h (fun i => env (i + 1)) (h (env 0) op s).2 := rfl

theorem exec_bind (h : Handler Op Res ε σ) (p : Prog Op Res α) (f : α → Prog Op Res β)
    (env : Nat → ε) (s : σ) :
    (p >>= f).exec h env s =
      (f (p.exec h env s).1).exec h (p.exec h env s).2.2 (p.exec h env s).2.1 := by
  induction p generalizing env s with
  | ret a => rfl
  | call op k ih => exact ih _ _ _

/-- Run to the end in surroundings that stay the same. -/
def alone (h : Handler Op Res ε σ) (e : ε) : Prog Op Res α → σ → α × σ
  | .ret a, s => (a, s)
  | .call op k, s => (k (h e op s).1).alone h e (h e op s).2

@[simp] theorem alone_ret (h : Handler Op Res ε σ) (e : ε) (a : α) (s : σ) :
    (ret a : Prog Op Res α).alone h e s = (a, s) := rfl

@[simp] theorem alone_call (h : Handler Op Res ε σ) (e : ε) (op : Op) (k : Res op → Prog Op Res α)
    (s : σ) : (call op k).alone h e s = (k (h e op s).1).alone h e (h e op s).2 := rfl

theorem alone_bind (h : Handler Op Res ε σ) (e : ε) (p : Prog Op Res α) (f : α → Prog Op Res β) (s : σ) :
    (p >>= f).alone h e s = (f (p.alone h e s).1).alone h e (p.alone h e s).2 := by
  induction p generalizing s with
  | ret a => rfl
  | call op k ih => exact ih _ _

/-! ## One call at a time -/

/-- The program has returned. -/
def idle : Prog Op Res α → Bool
  | .ret _ => true
  | .call _ _ => false

/-- The call a program is about to make; `none` when it has returned. -/
def next : Prog Op Res α → Option Op
  | .ret _ => none
  | .call op _ => some op

/-- Make the next call of a program; `none` when it has returned. -/
def advance (h : Handler Op Res ε σ) (e : ε) : Prog Op Res α → σ → Option (Prog Op Res α × σ)
  | .ret _, _ => none
  | .call op k, s => some (k (h e op s).1, (h e op s).2)

/-! ## Specifications -/

variable {G : Type}

/-- What each call needs of the ghost, for a postcondition on its answer and the ghost after it. -/
abbrev Spec (Op : Type) (Res : Op → Type) (G : Type) :=
  (op : Op) → (Res op → G → Prop) → G → Prop

/-- The weakest precondition of a program. -/
def wp (π : Spec Op Res G) : Prog Op Res α → (α → G → Prop) → G → Prop
  | .ret a, post, g => post a g
  | .call op k, post, g => π op (fun r g' => (k r).wp π post g') g

@[simp] theorem wp_ret (π : Spec Op Res G) (a : α) (post : α → G → Prop) (g : G) :
    (ret a : Prog Op Res α).wp π post g ↔ post a g := Iff.rfl

@[simp] theorem wp_call (π : Spec Op Res G) (op : Op) (k : Res op → Prog Op Res α)
    (post : α → G → Prop) (g : G) :
    (call op k).wp π post g ↔ π op (fun r g' => (k r).wp π post g') g := Iff.rfl

/-- A `do` step: what comes after is the postcondition of what comes before. -/
theorem wp_bind (π : Spec Op Res G) (p : Prog Op Res α) (f : α → Prog Op Res β)
    (post : β → G → Prop) (g : G) :
    (p >>= f).wp π post g ↔ p.wp π (fun a g' => (f a).wp π post g') g := by
  induction p generalizing g with
  | ret a => exact Iff.rfl
  | call op k ih =>
    have hk : (fun r g' => ((k r).bind f).wp π post g')
        = fun r g' => (k r).wp π (fun a g'' => (f a).wp π post g'') g' := by
      funext r g'
      exact propext (ih r g')
    show π op (fun r g' => ((k r).bind f).wp π post g') g ↔ _
    rw [hk]
    exact Iff.rfl

/-! ## A program behind another interface -/

section Embed

variable {Op' : Type} {Res' : Op' → Type} (f : Op → Op') (g : ∀ op, Res' (f op) → Res op)

/-- The same program, its calls made through another interface. -/
def embed : Prog Op Res α → Prog Op' Res' α
  | .ret a => .ret a
  | .call op k => .call (f op) fun r => (k (g op r)).embed

@[simp] theorem embed_ret (a : α) : (ret a : Prog Op Res α).embed f g = (ret a : Prog Op' Res' α) := rfl

@[simp] theorem embed_call (op : Op) (k : Res op → Prog Op Res α) :
    (call op k).embed f g = (call (f op) fun r => (k (g op r)).embed f g : Prog Op' Res' α) := rfl

end Embed

/-! ## The calls made so far -/

/-- `p` has made the calls listed, was answered as listed, and `p'` is what is left of it. -/
inductive Reaches (p : Prog Op Res α) : List (Sigma Res) → Prog Op Res α → Prop where
  | start : Reaches p [] p
  | next {calls : List (Sigma Res)} {op : Op} {k : Res op → Prog Op Res α}
      (h : Reaches p calls (.call op k)) (r : Res op) : Reaches p (calls ++ [⟨op, r⟩]) (k r)

/-- **The trace rule.**  When every answer of a call has a ghost that the specification allows and that
    `R` relates to the calls so far, what is left of a program still keeps its specification. -/
theorem Reaches.wp {π : Spec Op Res G} {post : α → G → Prop} {R : List (Sigma Res) → G → Prop}
    (hstep : ∀ calls g op (next : Res op → G → Prop) r, R calls g → π op next g →
      ∃ g', next r g' ∧ R (calls ++ [⟨op, r⟩]) g')
    {p p' : Prog Op Res α} {calls : List (Sigma Res)} {g : G} (h : Reaches p calls p')
    (h0 : R [] g) (hwp : p.wp π post g) : ∃ g', R calls g' ∧ p'.wp π post g' := by
  induction h with
  | start => exact ⟨g, h0, hwp⟩
  | next _ r ih =>
    obtain ⟨g', hR, hcall⟩ := ih
    obtain ⟨g'', hnext, hR'⟩ := hstep _ g' _ _ r hR hcall
    exact ⟨g'', hR', hnext⟩

/-! ## Many programs over one state -/

section Pool

variable {ι : Type} [DecidableEq ι]

/-- Programs over one shared state. -/
structure Pool (Op : Type) (Res : Op → Type) (ι σ : Type) where
  state : σ
  task : ι → Prog Op Res Unit

/-- One call of the program `i`, in the surroundings `e`. -/
def Pool.advance (h : Handler Op Res ε σ) (c : Pool Op Res ι σ) (i : ι) (e : ε) :
    Option (Pool Op Res ι σ) :=
  (Prog.advance h e (c.task i) c.state).map fun r => ⟨r.2, Function.update c.task i r.1⟩

theorem Pool.advance_eq_some {h : Handler Op Res ε σ} {c c' : Pool Op Res ι σ} {i : ι} {e : ε} :
    c.advance h i e = some c' ↔
      ∃ op k, c.task i = .call op k ∧
        c' = ⟨(h e op c.state).2, Function.update c.task i (k (h e op c.state).1)⟩ := by
  rw [Pool.advance, Option.map_eq_some_iff]
  constructor
  · rintro ⟨⟨p', s'⟩, hadv, rfl⟩
    cases hp : c.task i with
    | ret a => rw [hp] at hadv; cases hadv
    | call op k =>
      rw [hp] at hadv
      cases hadv
      exact ⟨op, k, rfl, rfl⟩
  · rintro ⟨op, k, hp, rfl⟩
    rw [hp]
    exact ⟨_, rfl, rfl⟩

/-- What at most one task has, at most one has after `i` has moved, if `i` has not taken what another has. -/
theorem unique_update {G : Type} {γ : ι → G} {P : G → Prop} (h : ∀ j k, P (γ j) → P (γ k) → j = k)
    {i : ι} {g : G} (hg : P g → ∀ j, j ≠ i → ¬ P (γ j)) :
    ∀ j k, P (Function.update γ i g j) → P (Function.update γ i g k) → j = k := by
  intro j k hj hk
  by_cases hji : j = i
  · subst hji
    by_contra hne
    rw [Function.update_self] at hj
    rw [Function.update_of_ne (Ne.symm hne)] at hk
    exact hg hj k (Ne.symm hne) hk
  · rw [Function.update_of_ne hji] at hj
    by_cases hki : k = i
    · subst hki
      rw [Function.update_self] at hk
      exact absurd hj (hg hk j hji)
    · rw [Function.update_of_ne hki] at hk
      exact h j k hj hk

variable {G : ι → Type}

/-- The global invariant holds, and every task keeps its specification from the ghost it has, to a
    ghost that is `done`. -/
structure Pledged (π : (i : ι) → Spec Op Res (G i)) (done : (i : ι) → G i → Prop)
    (Inv : σ → ((i : ι) → G i) → Prop) (c : Pool Op Res ι σ) (γ : (i : ι) → G i) : Prop where
  inv : Inv c.state γ
  each : ∀ i, (c.task i).wp (π i) (fun _ g => done i g) (γ i)

variable {π : (i : ι) → Spec Op Res (G i)} {done : (i : ι) → G i → Prop}
  {Inv : σ → ((i : ι) → G i) → Prop} {c c' : Pool Op Res ι σ} {γ : (i : ι) → G i}

/-- Replacing one task and its ghost. -/
theorem Pledged.set (hp : Pledged π done Inv c γ) (i : ι) {s' : σ} {p : Prog Op Res Unit} {g : G i}
    (hinv : Inv s' (Function.update γ i g)) (hwp : p.wp (π i) (fun _ g => done i g) g) :
    Pledged π done Inv ⟨s', Function.update c.task i p⟩ (Function.update γ i g) := by
  refine ⟨hinv, fun j => ?_⟩
  show (Function.update c.task i p j).wp (π j) _ (Function.update γ i g j)
  by_cases hj : j = i
  · subst hj
    rw [Function.update_self, Function.update_self]
    exact hwp
  · rw [Function.update_of_ne hj, Function.update_of_ne hj]
    exact hp.each j

omit [DecidableEq ι] in
/-- A task that has returned has done what it was to do. -/
theorem Pledged.done_of_idle (hp : Pledged π done Inv c γ) {i : ι} (hidle : (c.task i).idle = true) :
    done i (γ i) := by
  have hdone := hp.each i
  cases htask : c.task i with
  | ret a =>
    rw [htask] at hdone
    exact hdone
  | call op k =>
    rw [htask] at hidle
    cases hidle

/-- **The interleaving rule.**  If the handler answers the call as its specification says and keeps
    the global invariant, the pledge of all tasks survives the call. -/
theorem Pledged.advance {h : Handler Op Res ε σ} (hp : Pledged π done Inv c γ) {i : ι} {e : ε}
    (hadv : c.advance h i e = some c')
    (hsound : ∀ op k, c.task i = .call op k → ∀ post, π i op post (γ i) →
      ∃ g', post (h e op c.state).1 g' ∧ Inv (h e op c.state).2 (Function.update γ i g')) :
    ∃ g', Pledged π done Inv c' (Function.update γ i g') := by
  obtain ⟨op, k, htask, rfl⟩ := Pool.advance_eq_some.mp hadv
  have hi := hp.each i
  rw [htask] at hi
  obtain ⟨g', hpost, hinv⟩ := hsound op k htask _ hi
  exact ⟨g', hp.set i hinv hpost⟩

end Pool

end Prog
