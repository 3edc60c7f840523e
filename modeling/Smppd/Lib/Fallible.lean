/-
  FALLIBLE computations: `Except ε α` and the loops that stop at the first error.

  The `?` of a program is the bind of `Except`, and a loop that builds one value for each element of a
  list and gives up at the first failure is `collect`.  A result of either is taken apart by ONE
  equation: `bind_eq_ok`, and for a whole list `exists_collect_eq_ok` and `forall₂_of_collect`, or
  `collect_eq_ok_iff_map` where success and value of each element are known.

  An `Effect` is one that also changes the world, whether it fails or not; it is taken apart in the same way.
-/
import Mathlib.Logic.Basic
import Mathlib.Data.List.Basic
import Mathlib.Data.List.Forall2

namespace Fallible

variable {ε α β : Type}

/-- A step that succeeds, then the rest. -/
theorem bind_eq_ok {x : Except ε α} {f : α → Except ε β} {b : β} :
    (x >>= f) = .ok b ↔ ∃ a, x = .ok a ∧ f a = .ok b := by
  cases x with
  | error e =>
    constructor
    · intro h
      cases h
    · rintro ⟨a, h, -⟩
      cases h
  | ok a =>
    constructor
    · intro h
      exact ⟨a, rfl, h⟩
    · rintro ⟨a', h, hb⟩
      cases h
      exact hb

/-- A step whose result is only wrapped up succeeds as often as the step. -/
theorem exists_bind_pure_eq_ok {x : Except ε α} {f : α → β} :
    (∃ b, (x >>= fun a => pure (f a)) = .ok b) ↔ ∃ a, x = .ok a := by
  constructor
  · rintro ⟨b, h⟩
    obtain ⟨a, ha, -⟩ := bind_eq_ok.mp h
    exact ⟨a, ha⟩
  · rintro ⟨a, rfl⟩
    exact ⟨f a, rfl⟩

/-- A result that is there. -/
theorem toOption_eq_some {x : Except ε α} {a : α} : x.toOption = some a ↔ x = .ok a := by
  cases x with
  | error e =>
    refine iff_of_false (fun h => ?_) fun h => ?_
    · cases h
    · cases h
  | ok b =>
    constructor
    · intro h
      cases h
      rfl
    · intro h
      cases h
      rfl

/-- One value for each element, or the first error. -/
def collect (f : α → Except ε β) : List α → Except ε (List β)
  | [] => pure []
  | a :: l => do
    let b ← f a
    let bs ← collect f l
    pure (b :: bs)

/-- Where success is a condition `P` and the value is `g`, so it is for the whole list. -/
theorem collect_eq_ok_iff_map {f : α → Except ε β} {P : α → Prop} {g : α → β}
    (hf : ∀ a b, f a = .ok b ↔ P a ∧ b = g a) {l : List α} {bs : List β} :
    collect f l = .ok bs ↔ (∀ a ∈ l, P a) ∧ bs = l.map g := by
  induction l generalizing bs with
  | nil =>
    constructor
    · intro h
      cases h
      exact ⟨fun _ hmem => absurd hmem List.not_mem_nil, rfl⟩
    · rintro ⟨-, rfl⟩
      rfl
  | cons a l ih =>
    rw [collect, bind_eq_ok, List.forall_mem_cons, List.map_cons]
    constructor
    · rintro ⟨b, hb, hrest⟩
      obtain ⟨bs', hbs', heq⟩ := bind_eq_ok.mp hrest
      obtain ⟨hP, rfl⟩ := (hf a b).mp hb
      obtain ⟨hall, rfl⟩ := ih.mp hbs'
      cases heq
      exact ⟨⟨hP, hall⟩, rfl⟩
    · rintro ⟨⟨hP, hall⟩, rfl⟩
      exact ⟨g a, (hf a _).mpr ⟨hP, rfl⟩, bind_eq_ok.mpr ⟨l.map g, ih.mpr ⟨hall, rfl⟩, rfl⟩⟩

/-- A list is collected in parts. -/
theorem collect_append_eq_ok {f : α → Except ε β} {l l' : List α} {bs : List β} :
    collect f (l ++ l') = .ok bs ↔ ∃ b b', collect f l = .ok b ∧ collect f l' = .ok b' ∧ bs = b ++ b' := by
  induction l generalizing bs with
  | nil =>
    constructor
    · intro h
      exact ⟨[], bs, rfl, h, rfl⟩
    · rintro ⟨b, b', hb, hb', rfl⟩
      cases hb
      exact hb'
  | cons a l ih =>
    rw [List.cons_append, collect, bind_eq_ok]
    constructor
    · rintro ⟨c, hc, hrest⟩
      obtain ⟨bs', hbs', heq⟩ := bind_eq_ok.mp hrest
      cases heq
      obtain ⟨b, b', hb, hb', rfl⟩ := ih.mp hbs'
      exact ⟨c :: b, b', bind_eq_ok.mpr ⟨c, hc, bind_eq_ok.mpr ⟨b, hb, rfl⟩⟩, hb', rfl⟩
    · rintro ⟨b, b', hb, hb', rfl⟩
      obtain ⟨c, hc, hrest⟩ := bind_eq_ok.mp hb
      obtain ⟨bs', hbs', heq⟩ := bind_eq_ok.mp hrest
      cases heq
      exact ⟨c, hc, bind_eq_ok.mpr ⟨bs' ++ b', ih.mpr ⟨bs', b', hbs', hb', rfl⟩, rfl⟩⟩

/-- What has been collected corresponds to the list element by element. -/
theorem forall₂_of_collect {f : α → Except ε β} {l : List α} {bs : List β} (h : collect f l = .ok bs) :
    List.Forall₂ (fun a b => f a = .ok b) l bs := by
  induction l generalizing bs with
  | nil =>
    cases h
    exact .nil
  | cons a l ih =>
    obtain ⟨b, hb, hrest⟩ := bind_eq_ok.mp h
    obtain ⟨bs', hbs', heq⟩ := bind_eq_ok.mp hrest
    cases heq
    exact .cons hb (ih hbs')

/-- What has been collected was made of an element. -/
theorem exists_of_mem_collect {f : α → Except ε β} {l : List α} {bs : List β}
    (h : collect f l = .ok bs) {b : β} (hb : b ∈ bs) : ∃ a ∈ l, f a = .ok b := by
  have hmade := forall₂_of_collect h
  clear h
  induction hmade with
  | nil => cases hb
  | cons hmade hrest ih =>
    rcases List.mem_cons.mp hb with rfl | hlater
    · exact ⟨_, List.mem_cons_self, hmade⟩
    · obtain ⟨a', ha', hmade'⟩ := ih hlater
      exact ⟨a', List.mem_cons_of_mem _ ha', hmade'⟩

/-- A list is collected when every element succeeds. -/
theorem exists_collect_eq_ok {f : α → Except ε β} {l : List α} :
    (∃ bs, collect f l = .ok bs) ↔ ∀ a ∈ l, ∃ b, f a = .ok b := by
  induction l with
  | nil => exact iff_of_true ⟨[], rfl⟩ fun _ h => absurd h List.not_mem_nil
  | cons a l ih =>
    rw [List.forall_mem_cons, ← ih]
    constructor
    · rintro ⟨bs, h⟩
      obtain ⟨b, hb, hrest⟩ := bind_eq_ok.mp h
      obtain ⟨bs', hbs', -⟩ := bind_eq_ok.mp hrest
      exact ⟨⟨b, hb⟩, bs', hbs'⟩
    · rintro ⟨⟨b, hb⟩, bs', hbs'⟩
      exact ⟨b :: bs', bind_eq_ok.mpr ⟨b, hb, bind_eq_ok.mpr ⟨bs', hbs', rfl⟩⟩⟩

/-! ## In a world that changes -/

/-- A computation that can fail, and changes the world also when it does. -/
def Effect (ω ε α : Type) := ω → Except ε α × ω

namespace Effect

variable {ω ε' : Type}

/-- `?`: the rest, unless it fails. -/
def andThen (x : Effect ω ε α) (f : α → Effect ω ε β) : Effect ω ε β := fun w =>
  match x w with
  | (.ok a, w) => f a w
  | (.error e, w) => (.error e, w)

instance : Monad (Effect ω ε) where
  pure a := fun w => (.ok a, w)
  bind := andThen

/-- `map_err`. -/
def mapError (f : ε → ε') (x : Effect ω ε α) : Effect ω ε' α := fun w => ((x w).1.mapError f, (x w).2)

/-- One that cannot fail. -/
def lift (f : ω → α × ω) : Effect ω ε α := fun w => (.ok (f w).1, (f w).2)

/-- One that cannot fail and returns nothing. -/
def modify (f : ω → ω) : Effect ω ε Unit := lift fun w => ((), f w)

/-- One that does nothing to the world. -/
def ofExcept (r : Except ε α) : Effect ω ε α := fun w => (r, w)

/-- `unwrap_or`. -/
def unwrapOr (default : α) (x : Effect ω ε α) : ω → α × ω := fun w => ((x w).1.toOption.getD default, (x w).2)

/-- `let _ =`. -/
def discard (x : Effect ω ε α) : ω → ω := fun w => (x w).2

variable {x : Effect ω ε α} {f : α → Effect ω ε β} {w w' : ω}

/-- A step that succeeds, then the rest in the world that it leaves. -/
theorem bind_eq_ok {b : β} :
    (x >>= f) w = (.ok b, w') ↔ ∃ a w₁, x w = (.ok a, w₁) ∧ f a w₁ = (.ok b, w') := by
  show andThen x f w = _ ↔ _
  unfold andThen
  rcases hx : x w with ⟨e | a, w₁⟩
  · constructor
    · intro h
      cases h
    · rintro ⟨a, w₁, h, -⟩
      cases h
  · constructor
    · exact fun h => ⟨a, w₁, rfl, h⟩
    · rintro ⟨a', w₁', h, hrest⟩
      cases h
      exact hrest

/-- A first step that does nothing to the world. -/
theorem exists_ofExcept_bind {r : Except ε α} {P : β → ω → Prop} :
    (∃ b w', (ofExcept r >>= f) w = (.ok b, w') ∧ P b w') ↔
      ∃ a, r = .ok a ∧ ∃ b w', f a w = (.ok b, w') ∧ P b w' := by
  constructor
  · rintro ⟨b, w', h, hP⟩
    obtain ⟨a, w₁, hfirst, hrest⟩ := bind_eq_ok.mp h
    obtain ⟨rfl, rfl⟩ := Prod.mk.inj hfirst
    exact ⟨a, rfl, b, w', hrest, hP⟩
  · rintro ⟨a, rfl, b, w', h, hP⟩
    exact ⟨b, w', bind_eq_ok.mpr ⟨a, w, rfl, h⟩, hP⟩

/-- A last step that only wraps up the result. -/
theorem exists_bind_pure {g : α → β} {P : β → ω → Prop} :
    (∃ b w', (x >>= fun a => pure (g a)) w = (.ok b, w') ∧ P b w') ↔
      ∃ a w', x w = (.ok a, w') ∧ P (g a) w' := by
  constructor
  · rintro ⟨b, w', h, hP⟩
    obtain ⟨a, w₁, hfirst, hlast⟩ := bind_eq_ok.mp h
    cases hlast
    exact ⟨a, _, hfirst, hP⟩
  · rintro ⟨a, w', h, hP⟩
    exact ⟨g a, w', bind_eq_ok.mpr ⟨a, w', h, rfl⟩, hP⟩

theorem mapError_eq_ok {g : ε → ε'} {a : α} : x.mapError g w = (.ok a, w') ↔ x w = (.ok a, w') := by
  unfold mapError
  rcases x w with ⟨e | a', w₁⟩
  · constructor
    · intro h
      cases h
    · intro h
      cases h
  · constructor
    · intro h
      cases h
      rfl
    · intro h
      cases h
      rfl

theorem lift_eq_ok {g : ω → α × ω} {a : α} : (lift g : Effect ω ε α) w = (.ok a, w') ↔ g w = (a, w') := by
  unfold lift
  constructor
  · intro h
    cases h
    rfl
  · intro h
    rw [h]

end Effect

end Fallible
