/-
  RECORDS: machines whose steps are seen.

  A step gives, next to the state it leads to, the events it is seen to do; `noted` lets a machine write them
  down.  What is said of a record is mostly of one form: an event is BACKED by what was recorded before it.
  `Backed` is that form, and `backed_append` how it is kept when a step adds to the record.

  Events are about something, and what a record says about one thing is a word (`concerning`).  What a machine that
  reads the word may still do bounds how often it is seen to do it (`countP_le_left`, `countP_add_left`).
-/
import Smppd.Lib.Machine
import Mathlib.Data.List.Basic

namespace Record

open Machine

variable {σ α ε κ : Type*}

/-! ## Writing down -/

/-- A step, and what is seen of it added to the record. -/
def noted (step : σ → α → Option (List ε × σ)) (s : σ × List ε) (a : α) : Option (σ × List ε) :=
  (step s.1 a).map fun r => (r.2, s.2 ++ r.1)

theorem noted_eq_some {step : σ → α → Option (List ε × σ)} {s s' : σ × List ε} {a : α} :
    noted step s a = some s' ↔ ∃ seen t, step s.1 a = some (seen, t) ∧ s' = (t, s.2 ++ seen) := by
  rw [noted, Option.map_eq_some_iff]
  constructor
  · rintro ⟨⟨seen, t⟩, hstep, rfl⟩
    exact ⟨seen, t, hstep, rfl⟩
  · rintro ⟨seen, t, hstep, rfl⟩
    exact ⟨(seen, t), hstep, rfl⟩

/-- What holds of a state and the word that was read up to it. -/
theorem run_word {step : σ → ε → Option σ} {P : σ → List ε → Prop} {s s' : σ} {w : List ε} (h0 : P s [])
    (hstep : ∀ s w e s', P s w → step s e = some s' → P s' (w ++ [e])) (hrun : run step s w = some s') : P s' w := by
  have hgo : ∀ (w before : List ε) (s : σ), P s before → run step s w = some s' → P s' (before ++ w) := by
    intro w
    induction w with
    | nil =>
      intro before s h hrun
      obtain rfl := Option.some.inj hrun
      exact (List.append_nil before).symm ▸ h
    | cons e w ih =>
      intro before s h hrun
      obtain ⟨t, ht, hrest⟩ := run_cons_eq_some.mp hrun
      exact List.append_cons before e w ▸ ih (before ++ [e]) t (hstep s before e t h ht) hrest
  exact hgo w [] s h0 hrun

/-! ## What is recorded, and what before it -/

/-- Every event is backed by what was recorded before it. -/
def Backed (P : List ε → ε → Prop) (events : List ε) : Prop :=
  ∀ before e later, events = before ++ e :: later → P before e

variable {P : List ε → ε → Prop} {events more : List ε}

theorem backed_nil : Backed P [] := by
  intro before e later h
  exact absurd h.symm (List.append_ne_nil_of_right_ne_nil before (List.cons_ne_nil e later))

/-- A record that is continued: what is added is backed by the record and by what was added before. -/
theorem backed_append (h : Backed P events) (hmore : Backed (fun before e => P (events ++ before) e) more) :
    Backed P (events ++ more) := by
  intro before e later heq
  rcases List.append_eq_append_iff.mp heq with ⟨added, hbefore, hrest⟩ | ⟨rest, hevents, hmore'⟩
  · rw [hbefore]
    exact hmore added e later hrest
  · cases rest with
    | nil =>
      rw [List.append_nil] at hevents
      have hbacked : P (events ++ []) e := hmore [] e later hmore'.symm
      rwa [List.append_nil, hevents] at hbacked
    | cons e' rest =>
      obtain ⟨rfl, -⟩ := List.cons.inj hmore'
      exact h before e rest hevents

/-- What is added is one event. -/
theorem backed_singleton {e : ε} (h : P [] e) : Backed P [e] := by
  intro before e' later heq
  cases before with
  | nil =>
    obtain ⟨rfl, -⟩ := List.cons.inj heq
    exact h
  | cons e'' before =>
    exact absurd (List.cons.inj heq).2.symm (List.append_ne_nil_of_right_ne_nil before (List.cons_ne_nil e' later))

/-- What is added is none of the events that need backing. -/
theorem backed_of_forall (h : ∀ e ∈ more, ∀ before, P before e) : Backed P more := by
  rintro before e later rfl
  exact h e (List.mem_append_right _ List.mem_cons_self) before

/-! ## What a record says about one thing -/

variable [DecidableEq κ] (topic : ε → Option κ)

/-- What a record says about one thing. -/
def concerning (k : κ) (events : List ε) : List ε := events.filter fun e => topic e = some k

variable {topic} {k : κ}

theorem concerning_append (events more : List ε) :
    concerning topic k (events ++ more) = concerning topic k events ++ concerning topic k more :=
  List.filter_append _ _

theorem concerning_cons_self {e : ε} (h : topic e = some k) (events : List ε) :
    concerning topic k (e :: events) = e :: concerning topic k events :=
  List.filter_cons_of_pos (decide_eq_true h)

theorem concerning_cons_ne {e : ε} (h : topic e ≠ some k) (events : List ε) :
    concerning topic k (e :: events) = concerning topic k events :=
  List.filter_cons_of_neg fun hk => h (of_decide_eq_true hk)

theorem mem_concerning {e : ε} : e ∈ concerning topic k events ↔ e ∈ events ∧ topic e = some k := by
  rw [concerning, List.mem_filter, decide_eq_true_iff]

/-- A word that a machine reads, read at one of its events. -/
theorem run_concerning_split {step : σ → ε → Option σ} {s s' : σ} {before later : List ε} {e : ε}
    (htopic : topic e = some k)
    (h : run step s (concerning topic k (before ++ e :: later)) = some s') :
    ∃ s₁ s₂, run step s (concerning topic k before) = some s₁ ∧ step s₁ e = some s₂ ∧
      run step s₂ (concerning topic k later) = some s' := by
  rw [concerning_append, concerning_cons_self htopic, run_append] at h
  obtain ⟨s₁, hbefore, hrest⟩ := Option.bind_eq_some_iff.mp h
  obtain ⟨s₂, hstep, hlater⟩ := run_cons_eq_some.mp hrest
  exact ⟨s₁, s₂, hbefore, hstep, hlater⟩

variable {step : σ → ε → Option σ} (Inv : σ → Prop) (left : σ → Nat) (counts : ε → Bool)

/-- **What may still be done bounds what is done**: if a step that counts uses up one of what is `left`, and no step
    adds to it, a word counts no more than is left at its beginning. -/
theorem countP_le_left (hinv : ∀ s e s', Inv s → step s e = some s' → Inv s')
    (hleft : ∀ s e s', Inv s → step s e = some s' → left s' + (if counts e then 1 else 0) ≤ left s)
    {s s' : σ} {w : List ε} (h0 : Inv s) (h : run step s w = some s') : w.countP counts + left s' ≤ left s := by
  induction w generalizing s with
  | nil =>
    obtain rfl := Option.some.inj h
    exact Nat.le_of_eq (Nat.zero_add _)
  | cons e w ih =>
    obtain ⟨t, hstep, hrun⟩ := run_cons_eq_some.mp h
    have hrest := ih (hinv s e t h0 hstep) hrun
    have hstep' := hleft s e t h0 hstep
    rw [List.countP_cons]
    omega

end Record
