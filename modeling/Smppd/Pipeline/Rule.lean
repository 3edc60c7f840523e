/-
  THE RULE for invariants of the pipeline, over any ghosts.

  A body is specified by what each of its calls needs of a ghost that it has, and does to it.  `Upholds` lists what is
  to be shown of an invariant that relates the shared state to the ghosts of all bodies, one condition for each kind
  of step; where a processor starts a body, that includes a ghost for it to begin with.  `Upholds.run`: such an
  invariant holds along every run in which nobody else publishes about messages and the ids do not go round.
-/
import Smppd.Pipeline.System

namespace Smppd.Pipeline

open Smppd.Store Smppd.Gateway Smppd.Bootstrap Prog Machine

/-- The message that an event of the message flow is about. -/
def about : Event → Option MessageId
  | .messageSubmitRequest e | .messageAccepted e | .messageRejected e _ _ | .messageRouted e _ _ _ => some e.messageId
  | .messageForwarding id _ _ _ | .messageDelivered id _ _ _ _ | .messageFailed id _ _ _ _ _
  | .messageRetryScheduled id _ _ _ => some id
  | _ => none

/-- Nobody but the pipeline publishes about messages. -/
def Label.Apart : Label → Prop
  | .other ev => about ev = none
  | _ => True

instance : DecidablePred Label.Apart
  | .other ev => inferInstanceAs (Decidable (about ev = none))
  | .submit .. | .recv _ | .spawn | .advance .. => isTrue trivial

variable {S G : Type} [Storage S]

/-- The ids have not gone round. -/
def Shared.Unwrapped (s : Shared S) : Prop := s.world.counter ≤ 2 ^ 64

/-- Every kind of step keeps the invariant. -/
structure Upholds (π : Spec (Op Event) Op.Res G) (done : G → Prop) (Inv : Shared S → (Tid → G) → Prop) : Prop where
  submit : ∀ s γ clock sessionId sequenceNumber systemId submitSm,
    (s.submit clock sessionId sequenceNumber systemId submitSm).Unwrapped → Inv s γ →
    Inv (s.submit clock sessionId sequenceNumber systemId submitSm) γ
  other : ∀ s γ ev, flows ev = false → about ev = none → s.Unwrapped → Inv s γ → Inv (s.publish ev) γ
  skip : ∀ s γ p ev, s.log[s.seen p]? = some ev → p.takes ev = none → s.Unwrapped → Inv s γ → Inv (s.advanceSeen p) γ
  /-- The filter takes a message. -/
  filter : ∀ s γ e, s.log[s.seen .filter]? = some (.messageSubmitRequest e) → done (γ .filter) → s.Unwrapped → Inv s γ →
    ∃ g, (FilterProcessor.processMessage e).wp π (fun _ => done) g ∧
      Inv { s.advanceSeen .filter with job := Function.update s.job .filter (some e) } (Function.update γ .filter g)
  /-- The router takes a message. -/
  router : ∀ s γ e, s.log[s.seen .router]? = some (.messageAccepted e) → done (γ .router) → s.Unwrapped → Inv s γ →
    ∃ g, (RouterProcessor.routeMessage e).wp π (fun _ => done) g ∧
      Inv { s.advanceSeen .router with job := Function.update s.job .router (some e) } (Function.update γ .router g)
  /-- The forwarder takes a message and waits for a permit. -/
  hold : ∀ s γ e routeName cluster fallback, s.held = none →
    s.log[s.seen .forwarder]? = some (.messageRouted e routeName cluster fallback) → s.Unwrapped → Inv s γ →
    Inv { s.advanceSeen .forwarder with held := some ⟨e, cluster, fallback⟩ } γ
  spawn : ∀ s γ job, s.held = some job → s.Unwrapped → Inv s γ →
    ∃ g, (ForwarderProcessor.forwardMessage job.envelope job.clusterName job.fallbackClusters).wp π (fun _ => done) g ∧
      Inv { s with held := none, next := s.next + 1,
                   job := Function.update s.job (.forward s.next) (some job.envelope) }
        (Function.update γ (.forward s.next) g)
  call : ∀ s γ t env op post, (call env op s).2.Unwrapped → π op post (γ t) → Inv s γ →
    ∃ g', post (call env op s).1 g' ∧ Inv (call env op s).2 (Function.update γ t g')
  finish : ∀ s γ t e, s.job t = some e → s.Unwrapped → Inv s γ → Inv { s with finished := s.finished ++ [(t, e)] } γ

variable {π : Spec (Op Event) Op.Res G} {done : G → Prop} {Inv : Shared S → (Tid → G) → Prop}
  {c c' : Config S} {γ : Tid → G}

/-- The bodies keep their specification, and the invariant holds. -/
abbrev Upheld (π : Spec (Op Event) Op.Res G) (done : G → Prop) (Inv : Shared S → (Tid → G) → Prop) (c : Config S)
    (γ : Tid → G) : Prop :=
  Pledged (fun _ => π) (fun _ => done) Inv c γ

/-- A processor takes the next event. -/
theorem Upholds.dispatch (hinv : Upholds π done Inv) (h : Upheld π done Inv c γ) {p : Processor}
    (hlisten : listening c p = true) {ev : Event} (hev : c.state.log[c.state.seen p]? = some ev)
    (hfresh : c.state.Unwrapped) : ∃ γ', Upheld π done Inv (dispatch { c with state := c.state.advanceSeen p } p ev) γ' := by
  have hskip : p.takes ev = none → ∃ γ', Upheld π done Inv { c with state := c.state.advanceSeen p } γ' :=
    fun htakes => ⟨γ, hinv.skip _ γ p ev hev htakes hfresh h.inv, h.each⟩
  cases p with
  | filter =>
    cases ev with
    | messageSubmitRequest e =>
      obtain ⟨g, hwp, hnext⟩ := hinv.filter _ γ e hev (h.done_of_idle hlisten) hfresh h.inv
      exact ⟨_, h.set .filter hnext hwp⟩
    | _ => exact hskip rfl
  | router =>
    cases ev with
    | messageAccepted e =>
      obtain ⟨g, hwp, hnext⟩ := hinv.router _ γ e hev (h.done_of_idle hlisten) hfresh h.inv
      exact ⟨_, h.set .router hnext hwp⟩
    | _ => exact hskip rfl
  | forwarder =>
    cases ev with
    | messageRouted e routeName cluster fallback =>
      have hnone : c.state.held = none := Option.isNone_iff_eq_none.mp hlisten
      exact ⟨γ, hinv.hold _ γ e routeName cluster fallback hnone hev hfresh h.inv, h.each⟩
    | _ => exact hskip rfl

omit [Storage S] in
theorem bookkeep_cases (c : Config S) (t : Tid) :
    bookkeep c t = c ∨ ∃ e, c.state.job t = some e ∧
      bookkeep c t = { c with state := { c.state with finished := c.state.finished ++ [(t, e)] } } := by
  unfold bookkeep
  split
  · rename_i e _ hjob
    exact .inr ⟨e, hjob, rfl⟩
  · exact .inl rfl

/-- Ids are drawn, and never given back. -/
theorem counter_le_of_step {c c' : Config S} {concurrency : Nat} {label : Label} (hstep : Pipeline.step concurrency c label = some c') :
    c.state.world.counter ≤ c'.state.world.counter := by
  cases label with
  | submit =>
    obtain rfl := Option.some.inj hstep
    exact Nat.le_succ _
  | other ev =>
    obtain ⟨-, hnext⟩ := Option.ite_none_left_eq_some.mp hstep
    obtain rfl := Option.some.inj hnext
    exact Nat.le_refl _
  | recv p =>
    obtain ⟨-, hnext⟩ := Option.ite_none_right_eq_some.mp hstep
    obtain ⟨ev, -, rfl⟩ := Option.map_eq_some_iff.mp hnext
    cases p <;> cases ev <;> exact Nat.le_refl _
  | spawn =>
    obtain ⟨-, hnext⟩ := Option.ite_none_right_eq_some.mp hstep
    obtain ⟨job, -, rfl⟩ := Option.map_eq_some_iff.mp hnext
    exact Nat.le_refl _
  | advance t env =>
    obtain ⟨c₁, hadv, rfl⟩ := Option.map_eq_some_iff.mp hstep
    obtain ⟨op, k, -, rfl⟩ := Pool.advance_eq_some.mp hadv
    have hcall : c.state.world.counter ≤ (call env op c.state).2.world.counter := by
      cases op <;> first | exact Nat.le_refl _ | exact Nat.le_succ _
    rcases bookkeep_cases _ t with heq | ⟨e, -, heq⟩ <;> rw [heq] <;> exact hcall

/-- **The step rule.** -/
theorem Upholds.step (hinv : Upholds π done Inv) {concurrency : Nat} {label : Label} (hlabel : label.Apart)
    (h : Upheld π done Inv c γ) (hstep : Pipeline.step concurrency c label = some c') (hfresh : c'.state.Unwrapped) :
    ∃ γ', Upheld π done Inv c' γ' := by
  have hfresh₀ : c.state.Unwrapped := Nat.le_trans (counter_le_of_step hstep) hfresh
  cases label with
  | submit clock sessionId sequenceNumber systemId submitSm =>
    obtain rfl := Option.some.inj hstep
    exact ⟨γ, hinv.submit _ γ _ _ _ _ _ hfresh h.inv, h.each⟩
  | other ev =>
    obtain ⟨hflows, hnext⟩ := Option.ite_none_left_eq_some.mp hstep
    obtain rfl := Option.some.inj hnext
    exact ⟨γ, hinv.other _ γ ev (Bool.eq_false_iff.mpr hflows) hlabel hfresh₀ h.inv, h.each⟩
  | recv p =>
    obtain ⟨hlisten, hnext⟩ := Option.ite_none_right_eq_some.mp hstep
    obtain ⟨ev, hev, rfl⟩ := Option.map_eq_some_iff.mp hnext
    exact hinv.dispatch h hlisten hev hfresh₀
  | spawn =>
    obtain ⟨-, hnext⟩ := Option.ite_none_right_eq_some.mp hstep
    obtain ⟨job, hjob, rfl⟩ := Option.map_eq_some_iff.mp hnext
    obtain ⟨g, hwp, hspawn⟩ := hinv.spawn _ γ job hjob hfresh₀ h.inv
    exact ⟨_, h.set (.forward c.state.next) hspawn hwp⟩
  | advance t env =>
    obtain ⟨c₁, hadv, rfl⟩ := Option.map_eq_some_iff.mp hstep
    obtain ⟨op, k, htask, rfl⟩ := Pool.advance_eq_some.mp hadv
    have hcall : (Pipeline.call env op c.state).2.Unwrapped := by
      rcases bookkeep_cases _ t with heq | ⟨e, -, heq⟩ <;> rw [heq] at hfresh <;> exact hfresh
    have hsound : ∀ op' k', c.task t = .call op' k' → ∀ post, π op' post (γ t) →
        ∃ g', post (Pipeline.call env op' c.state).1 g' ∧ Inv (Pipeline.call env op' c.state).2 (Function.update γ t g') := by
      intro op' k' htask' post hpre
      obtain ⟨rfl, -⟩ := Prog.call.inj (htask.symm.trans htask')
      exact hinv.call _ γ t env op post hcall hpre h.inv
    obtain ⟨g', h'⟩ := h.advance hadv hsound
    refine ⟨Function.update γ t g', ?_⟩
    rcases bookkeep_cases _ t with heq | ⟨e, hjob, heq⟩ <;> rw [heq]
    · exact h'
    · exact ⟨hinv.finish _ _ t e hjob hcall h'.inv, h'.each⟩

/-- **The run rule.** -/
theorem Upholds.run (hinv : Upholds π done Inv) {concurrency : Nat} {storage : S} {labels : List Label} {g : G}
    (hdone : done g) (hboot : Inv (boot storage).state fun _ => g) (hlabels : ∀ label ∈ labels, label.Apart)
    (hrun : Machine.run (Pipeline.step concurrency) (boot storage) labels = some c) (hfresh : c.state.Unwrapped) :
    ∃ γ, Upheld π done Inv c γ := by
  have hsteps : ∀ (c : Config S) label c', (c.state.Unwrapped → ∃ γ, Upheld π done Inv c γ) → label.Apart →
      Pipeline.step concurrency c label = some c' → c'.state.Unwrapped → ∃ γ, Upheld π done Inv c' γ := by
    intro c label c' h hlabel hstep hfresh
    obtain ⟨γ, h⟩ := h (Nat.le_trans (counter_le_of_step hstep) hfresh)
    exact hinv.step hlabel h hstep hfresh
  exact meets_inv hsteps (fun _ => ⟨fun _ => g, hboot, fun _ => hdone⟩) (meets_of_forall hlabels _) hrun hfresh

end Smppd.Pipeline
