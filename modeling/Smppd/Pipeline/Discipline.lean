/-
  The DISCIPLINE of the processors' bodies.

  A body is given one envelope.  `keeps` says what its calls may do with it: it gives the envelope
  away exactly once, by handing it to the next stage or by publishing a response with the envelope's
  session and sequence number.  It also says how a body treats ids: it stores under the id it has
  drawn for the record and nothing else, and no update changes the id of a record.

  `wp_processMessage`, `wp_routeMessage` and `wp_forwardMessage` say that the three bodies keep it.
  `Preserved` then lists what is left to show of an invariant of the pipeline, one condition for each
  kind of step, and `Preserved.run` is the rule: such an invariant holds along every run.
-/
import Smppd.Pipeline.System

set_option linter.unusedVariables false

namespace Smppd.Pipeline

open Smppd.Store Smppd.Gateway Smppd.Bootstrap Prog Machine

/-! ## What a body may do -/

/-- The response is one for the envelope. -/
def Answers (e : MessageEnvelope) (r : ResponseEnvelope) : Prop :=
  r.sessionId = e.sessionId ∧ r.sequenceNumber = e.sequenceNumber

/-- What a body has in hand: the envelope it owes an answer for, and the id it has drawn for a record
    it has not stored yet. -/
structure Work where
  owed : Option MessageEnvelope
  drawn : Option MessageId

/-- A body that has been given an envelope. -/
def Work.given (e : MessageEnvelope) : Work := ⟨some e, none⟩

/-- A body that has nothing left in hand. -/
def Work.nothing : Work := ⟨none, none⟩

/-- What each call does to what a body has in hand. -/
def keeps : Spec (Op Event) Op.Res Work
  | .emit (.messageSubmitRequest _), _, _ => False
  | .emit (.messageAccepted e), post, g => g.owed = some e ∧ post () { g with owed := none }
  | .emit (.messageRouted e _ _ _), post, g => g.owed = some e ∧ post () { g with owed := none }
  | .emit (.responseReady r), post, g =>
    ∃ e, g.owed = some e ∧ Answers e r ∧ post () { g with owed := none }
  | .tryEmit _, _, _ => False
  | .newMessage .., post, g =>
    g.drawn = none ∧ ∀ m : StoredMessage, post m { g with drawn := some m.id }
  | .store m, post, g => g.drawn = some m.id ∧ post () { g with drawn := none }
  | .update _ f, post, g => (∀ clock m, (f clock m).id = m.id) ∧ ∀ updated, post updated g
  | _, post, g => ∀ r, post r g

/-- What a body ends with. -/
def kept (_ : Unit) (g : Work) : Prop := g = .nothing

/-! ## The three bodies -/

/-- A rejected message is answered. -/
theorem wp_rejectMessage (e : MessageEnvelope) (reason : String) (status : UInt32) :
    (FilterProcessor.rejectMessage e reason status).wp keeps kept (.given e) := by
  intro _
  exact ⟨e, rfl, ⟨rfl, rfl⟩, rfl⟩

/-- **The filter** answers a message or hands it on. -/
theorem wp_processMessage (e : MessageEnvelope) :
    (FilterProcessor.processMessage e).wp keeps kept (.given e) := by
  unfold FilterProcessor.processMessage
  split
  · exact wp_rejectMessage e _ _
  · split
    · exact wp_rejectMessage e _ _
    · exact ⟨rfl, rfl⟩

/-- **The router** hands a message on or answers it. -/
theorem wp_routeMessage (e : MessageEnvelope) :
    (RouterProcessor.routeMessage e).wp keeps kept (.given e) := by
  unfold RouterProcessor.routeMessage
  refine ⟨rfl, fun stored => ⟨rfl, fun route => ?_⟩⟩
  cases route with
  | some result => exact ⟨rfl, rfl⟩
  | none => exact ⟨fun _ _ => rfl, fun updated _ => ⟨e, rfl, ⟨rfl, rfl⟩, rfl⟩⟩

/-- An attempt neither answers nor hands on. -/
theorem wp_tryForwardToCluster (name : String) (e : MessageEnvelope)
    {post : Except ForwarderProcessor.AttemptError String → Work → Prop}
    {g : Work} (hpost : ∀ r, post r g) :
    (ForwarderProcessor.tryForwardToCluster name e).wp keeps post g := by
  unfold ForwarderProcessor.tryForwardToCluster
  intro cluster
  rcases cluster with _ | mock
  · exact hpost _
  · cases mock with
    | true => exact hpost _
    | false =>
      intro connection
      cases connection with
      | false => exact hpost _
      | true =>
        intro reply
        cases reply with
        | submitSmResp status messageId =>
          show Prog.wp _ (if status = 0 then _ else _) post _
          split
          · exact hpost _
          · exact hpost _
        | _ => exact hpost _

theorem wp_tryClusters (e : MessageEnvelope) (names : List String) (attempt : Nat)
    (last : Option UInt32 × Option String)
    {post : Except (Option UInt32 × Option String) (String × String) → Work → Prop}
    {g : Work} (hpost : ∀ r, post r g) :
    (ForwarderProcessor.tryClusters e names attempt last).wp keeps post g := by
  induction names generalizing attempt last with
  | nil => exact hpost _
  | cons name rest ih =>
    unfold ForwarderProcessor.tryClusters
    rw [wp_bind]
    intro _
    rw [wp_ret, wp_bind]
    refine wp_tryForwardToCluster name e fun r => ?_
    cases r with
    | ok smscMessageId => exact hpost _
    | error err => exact ih _ _

/-- **A forward task** answers its message, whatever comes of the attempts. -/
theorem wp_forwardMessage (e : MessageEnvelope) (name : String) (fallback : List String) :
    (ForwarderProcessor.forwardMessage e name fallback).wp keeps kept (.given e) := by
  unfold ForwarderProcessor.forwardMessage
  intro start
  show Prog.wp _ (ForwarderProcessor.tryClusters e _ _ _ >>= _) _ _
  rw [wp_bind]
  refine wp_tryClusters e _ _ _ fun r => ?_
  cases r with
  | ok reached =>
    intro clock
    exact ⟨fun _ _ => rfl, fun updated _ => ⟨e, rfl, ⟨rfl, rfl⟩, rfl⟩⟩
  | error last =>
    intro current clock
    dsimp only [Prog.bind]
    cases (current.map fun m => m.canRetry clock).getD false with
    | true => exact ⟨fun _ _ => rfl, fun updated _ => ⟨e, rfl, ⟨rfl, rfl⟩, rfl⟩⟩
    | false => exact ⟨fun _ _ => rfl, fun updated _ => ⟨e, rfl, ⟨rfl, rfl⟩, rfl⟩⟩

/-! ## Invariants of the pipeline -/

section Rule

variable {S : Type} [Storage S]

/-- The invariant relates the shared state to what the bodies have in hand, and every kind of step
    keeps it. -/
structure Preserved (Inv : Shared S → (Tid → Work) → Prop) : Prop where
  submit : ∀ s γ clock sessionId sequenceNumber systemId submitSm, Inv s γ →
    Inv (s.submit clock sessionId sequenceNumber systemId submitSm) γ
  other : ∀ s γ ev, flows ev = false → Inv s γ → Inv (s.publish ev) γ
  skip : ∀ s γ p ev, s.log[s.seen p]? = some ev → p.takes ev = none → Inv s γ →
    Inv (s.advanceSeen p) γ
  /-- The filter or the router takes an event and starts a body. -/
  take : ∀ s γ p ev e t, s.log[s.seen p]? = some ev → p.takes ev = some e →
    t = .filter ∨ t = .router → γ t = .nothing → Inv s γ →
    Inv { s.advanceSeen p with job := Function.update s.job t (some e) }
      (Function.update γ t (.given e))
  /-- The forwarder takes an event and waits for a permit. -/
  hold : ∀ s γ ev job, s.held = none → s.log[s.seen .forwarder]? = some ev →
    Processor.forwarder.takes ev = some job.envelope → Inv s γ →
    Inv { s.advanceSeen .forwarder with held := some job } γ
  spawn : ∀ s γ job, s.held = some job → Inv s γ →
    Inv { s with held := none, next := s.next + 1,
                 job := Function.update s.job (.forward s.next) (some job.envelope) }
      (Function.update γ (.forward s.next) (.given job.envelope))
  call : ∀ s γ t env op post, keeps op post (γ t) → Inv s γ →
    ∃ g', post (call env op s).1 g' ∧ Inv (call env op s).2 (Function.update γ t g')
  finish : ∀ s γ t e, s.job t = some e → Inv s γ →
    Inv { s with finished := s.finished ++ [(t, e)] } γ

variable {Inv : Shared S → (Tid → Work) → Prop}

/-- The bodies keep the discipline, and the invariant holds. -/
abbrev Keeping (Inv : Shared S → (Tid → Work) → Prop) (c : Config S) (γ : Tid → Work) : Prop :=
  Pledged (fun _ => keeps) (fun _ => kept ()) Inv c γ

omit [Storage S] in
/-- A body that has returned has nothing in hand. -/
theorem Keeping.nothing {c : Config S} {γ : Tid → Work} (h : Keeping Inv c γ) {t : Tid}
    (ht : idle (c.task t) = true) : γ t = .nothing := by
  have hwp := h.each t
  cases htask : c.task t with
  | ret a => rw [htask] at hwp; exact hwp
  | call op k => rw [htask] at ht; cases ht

/-- A processor takes the next event. -/
theorem Preserved.dispatch (hinv : Preserved Inv) {c : Config S} {γ : Tid → Work}
    (h : Keeping Inv c γ) {p : Processor} (hlisten : listening c p = true) {ev : Event}
    (hev : c.state.log[c.state.seen p]? = some ev) :
    ∃ γ', Keeping Inv (dispatch { c with state := c.state.advanceSeen p } p ev) γ' := by
  have hskip : p.takes ev = none → ∃ γ', Keeping Inv { c with state := c.state.advanceSeen p } γ' :=
    fun htakes => ⟨γ, hinv.skip _ γ p ev hev htakes h.inv, h.each⟩
  cases p with
  | filter =>
    cases ev with
    | messageSubmitRequest e =>
      have htake := hinv.take _ γ .filter _ e .filter hev rfl (Or.inl rfl) (h.nothing hlisten) h.inv
      exact ⟨_, h.set .filter htake (wp_processMessage e)⟩
    | _ => exact hskip rfl
  | router =>
    cases ev with
    | messageAccepted e =>
      have htake := hinv.take _ γ .router _ e .router hev rfl (Or.inr rfl) (h.nothing hlisten) h.inv
      exact ⟨_, h.set .router htake (wp_routeMessage e)⟩
    | _ => exact hskip rfl
  | forwarder =>
    cases ev with
    | messageRouted e routeName clusterName fallback =>
      have hnone : c.state.held = none := Option.isNone_iff_eq_none.mp hlisten
      exact ⟨γ, hinv.hold _ γ _ ⟨e, clusterName, fallback⟩ hnone hev rfl h.inv, h.each⟩
    | _ => exact hskip rfl

/-- **The step rule.** -/
theorem Preserved.step (hinv : Preserved Inv) {concurrency : Nat} {c c' : Config S} {a : Label}
    {γ : Tid → Work} (h : Keeping Inv c γ) (hstep : step concurrency c a = some c') :
    ∃ γ', Keeping Inv c' γ' := by
  cases a with
  | submit clock sessionId sequenceNumber systemId submitSm =>
    obtain rfl := Option.some.inj hstep
    exact ⟨γ, hinv.submit _ γ _ _ _ _ _ h.inv, h.each⟩
  | other ev =>
    simp only [Pipeline.step] at hstep
    split at hstep
    · cases hstep
    · rename_i hflows
      obtain rfl := Option.some.inj hstep
      exact ⟨γ, hinv.other _ γ ev (Bool.eq_false_iff.mpr hflows) h.inv, h.each⟩
  | recv p =>
    simp only [Pipeline.step] at hstep
    split at hstep
    · rename_i hlisten
      obtain ⟨ev, hev, rfl⟩ := Option.map_eq_some_iff.mp hstep
      exact hinv.dispatch h hlisten hev
    · cases hstep
  | spawn =>
    simp only [Pipeline.step] at hstep
    split at hstep
    · obtain ⟨job, hjob, rfl⟩ := Option.map_eq_some_iff.mp hstep
      exact ⟨_, h.set (.forward c.state.next) (hinv.spawn _ γ job hjob h.inv)
        (wp_forwardMessage job.envelope job.clusterName job.fallbackClusters)⟩
    · cases hstep
  | advance t env =>
    obtain ⟨c₁, hadv, rfl⟩ := Option.map_eq_some_iff.mp hstep
    obtain ⟨g', h'⟩ := Pledged.advance h hadv fun op k _ post hpre =>
      hinv.call _ γ t env op post hpre h.inv
    refine ⟨Function.update γ t g', ?_⟩
    unfold bookkeep
    split
    · rename_i envelope hidle hjob
      exact ⟨hinv.finish _ _ t envelope hjob h'.inv, h'.each⟩
    · exact h'

/-- **The run rule.** -/
theorem Preserved.run (hinv : Preserved Inv) {concurrency : Nat} {storage : S} {labels : List Label}
    {c : Config S} (hboot : Inv (boot storage).state fun _ => .nothing)
    (hrun : run (Pipeline.step concurrency) (boot storage) labels = some c) :
    ∃ γ, Keeping Inv c γ := by
  have hsteps : ∀ (c : Config S) a c', (∃ γ, Keeping Inv c γ) →
      Pipeline.step concurrency c a = some c' → ∃ γ, Keeping Inv c' γ := by
    rintro c a c' ⟨γ, h⟩ hstep
    exact hinv.step h hstep
  exact run_inv hsteps ⟨fun _ => .nothing, hboot, fun _ => rfl⟩ hrun

end Rule

end Smppd.Pipeline
