/-
  ONE RESPONSE per submission.

  The envelope of a submission is a TOKEN.  It is in one place at a time: in an event that the next
  processor has not taken yet, in the forwarder's hand while it waits for a permit, with a body that
  works on it, or answered.  Every body gives its token away exactly once (`keeps`); `Conserved` says
  that the tokens of all places add up to what was submitted.

  When nothing is pending and nothing is running, every other place is empty, so every submission is
  answered exactly once (`one_response_each`).
-/
import Mathlib.Tactic.Abel
import Smppd.Lib.Tokens
import Smppd.Pipeline.Discipline
import Smppd.Pipeline.System

set_option linter.unusedVariables false

namespace Smppd.Pipeline

open Smppd.Store Smppd.Gateway Smppd.Bootstrap Prog Machine Tokens

/-! ## Where the tokens are -/

/-- The response an event announces. -/
def response : Event → Option ResponseEnvelope
  | .responseReady r => some r
  | _ => none

variable {S : Type}

/-- The responses published as `ResponseReady`. -/
def responses (s : Shared S) : List ResponseEnvelope := s.log.filterMap response

/-- The envelopes on their way to a processor. -/
def onBus (s : Shared S) : Multiset MessageEnvelope :=
  unread Processor.filter.takes s.log (s.seen .filter) +
    unread Processor.router.takes s.log (s.seen .router) +
    unread Processor.forwarder.takes s.log (s.seen .forwarder)

/-- The envelopes on their way to a processor, or to a permit. -/
def pending (s : Shared S) : Multiset MessageEnvelope := onBus s + held (s.held.map Job.envelope)

/-- The bodies there are once `n` forward tasks have been spawned. -/
def agents (n : Nat) : Finset Tid :=
  insert .filter (insert .router ((Finset.range n).image .forward))

theorem forward_mem_agents {n k : Nat} : .forward k ∈ agents n ↔ k < n := by
  simp [agents]

theorem agents_succ (n : Nat) : agents (n + 1) = insert (.forward n) (agents n) := by
  unfold agents
  rw [Finset.range_add_one, Finset.image_insert, Finset.insert_comm Tid.router,
    Finset.insert_comm Tid.filter]

/-- **The invariant**: what has been answered, what the bodies owe and what is on its way add up to
    what was submitted. -/
structure Conserved (s : Shared S) (γ : Tid → Option MessageEnvelope) : Prop where
  read : ∀ p, s.seen p ≤ s.log.length
  spawned : ∀ t, t ∉ agents s.next → γ t = none
  sum : ∃ answered : List MessageEnvelope, List.Forall₂ Answers answered (responses s) ∧
    (answered : Multiset MessageEnvelope) + carried (agents s.next) γ + pending s = submitted s

section Invariant

variable {s : Shared S} {γ : Tid → Option MessageEnvelope}

theorem pending_publish (hread : ∀ p, s.seen p ≤ s.log.length) (ev : Event) :
    pending (s.publish ev) = pending s + held (Processor.filter.takes ev) +
      held (Processor.router.takes ev) + held (Processor.forwarder.takes ev) := by
  have h := fun p : Processor => unread_append p.takes (hread p) ev
  show unread _ (s.log ++ [ev]) (s.seen .filter) + unread _ (s.log ++ [ev]) (s.seen .router) +
    unread _ (s.log ++ [ev]) (s.seen .forwarder) + _ = _
  rw [h .filter, h .router, h .forwarder]
  unfold pending onBus
  abel

theorem submitted_publish (ev : Event) :
    (submitted (s.publish ev) : Multiset MessageEnvelope) =
      submitted s + held (Processor.filter.takes ev) := by
  have h := unread_append Processor.filter.takes (Nat.zero_le s.log.length) ev
  exact h

theorem responses_publish (ev : Event) :
    responses (s.publish ev) = responses s ++ (response ev).toList := by
  show (s.log ++ [ev]).filterMap response = _
  rw [List.filterMap_append]
  cases h : response ev with
  | none => rw [List.filterMap_cons_none h]; rfl
  | some r => rw [List.filterMap_cons_some h]; rfl

theorem read_publish (hread : ∀ p, s.seen p ≤ s.log.length) (ev : Event) (p : Processor) :
    (s.publish ev).seen p ≤ (s.publish ev).log.length := by
  show s.seen p ≤ (s.log ++ [ev]).length
  rw [List.length_append, List.length_singleton]
  have := hread p
  omega

/-- A body that owes something has been spawned. -/
theorem Conserved.mem_agents (h : Conserved s γ) {t : Tid} {e : MessageEnvelope}
    (ht : γ t = some e) : t ∈ agents s.next := by
  by_contra hnot
  exact nomatch (h.spawned t hnot).symm.trans ht

/-- Only the log counts. -/
theorem Conserved.world (h : Conserved s γ) {w : World S Event} (hw : w.sent = s.world.sent) :
    Conserved { s with world := w } γ := by
  obtain ⟨hread, hspawned, answered, hmatch, hsum⟩ := h
  refine ⟨fun p => ?_, hspawned, answered, ?_, ?_⟩
  · show s.seen p ≤ w.sent.length
    rw [hw]
    exact hread p
  · show List.Forall₂ Answers answered (w.sent.filterMap response)
    rw [hw]
    exact hmatch
  · unfold pending onBus submitted Shared.log at hsum ⊢
    rw [hw]
    exact hsum

/-- An event that is not of the message flow. -/
theorem Conserved.publish_other (h : Conserved s γ) {ev : Event}
    (htakes : ∀ p : Processor, p.takes ev = none) (hresponse : response ev = none) :
    Conserved (s.publish ev) γ := by
  obtain ⟨hread, hspawned, answered, hmatch, hsum⟩ := h
  refine ⟨read_publish hread ev, hspawned, answered, ?_, ?_⟩
  · rw [responses_publish, hresponse]
    exact (List.append_nil (responses s)).symm ▸ hmatch
  · rw [pending_publish hread, submitted_publish, htakes, htakes, htakes]
    simp only [held_none, add_zero]
    exact hsum

/-- A session submits a message. -/
theorem Conserved.publish_submit (h : Conserved s γ) (e : MessageEnvelope) :
    Conserved (s.publish (.messageSubmitRequest e)) γ := by
  obtain ⟨hread, hspawned, answered, hmatch, hsum⟩ := h
  refine ⟨read_publish hread _, hspawned, answered, ?_, ?_⟩
  · rw [responses_publish]
    exact (List.append_nil (responses s)).symm ▸ hmatch
  · rw [pending_publish hread, submitted_publish, ← hsum]
    show _ + carried (agents s.next) γ + (pending s + {e} + 0 + 0) = _ + {e}
    abel

/-- A body hands its envelope on. -/
theorem Conserved.publish_hand (h : Conserved s γ) {t : Tid} {e : MessageEnvelope}
    (ht : γ t = some e) {ev : Event} (hresponse : response ev = none)
    (hfilter : Processor.filter.takes ev = none)
    (htakes : held (Processor.router.takes ev) + held (Processor.forwarder.takes ev) = {e}) :
    Conserved (s.publish ev) (Function.update γ t none) := by
  have hmem := h.mem_agents ht
  obtain ⟨hread, hspawned, answered, hmatch, hsum⟩ := h
  refine ⟨read_publish hread ev, fun t' ht' => ?_, answered, ?_, ?_⟩
  · by_cases htt : t' = t
    · rw [htt, Function.update_self]
    · rw [Function.update_of_ne htt]
      exact hspawned t' ht'
  · rw [responses_publish, hresponse]
    exact (List.append_nil (responses s)).symm ▸ hmatch
  · rw [pending_publish hread, submitted_publish, hfilter, held_none, add_zero, add_zero, ← hsum,
      carried_drop hmem ht, add_assoc (pending s), htakes]
    show _ + carried (agents s.next) _ + _ = _
    abel

/-- A body answers its envelope. -/
theorem Conserved.publish_response (h : Conserved s γ) {t : Tid} {e : MessageEnvelope}
    (ht : γ t = some e) {r : ResponseEnvelope} (hr : Answers e r) :
    Conserved (s.publish (.responseReady r)) (Function.update γ t none) := by
  have hmem := h.mem_agents ht
  obtain ⟨hread, hspawned, answered, hmatch, hsum⟩ := h
  refine ⟨read_publish hread _, fun t' ht' => ?_, answered ++ [e], ?_, ?_⟩
  · by_cases htt : t' = t
    · rw [htt, Function.update_self]
    · rw [Function.update_of_ne htt]
      exact hspawned t' ht'
  · rw [responses_publish]
    exact List.rel_append hmatch (List.Forall₂.cons hr List.Forall₂.nil)
  · rw [pending_publish hread, submitted_publish, ← hsum, carried_drop hmem ht, ← Multiset.coe_add]
    show _ + {e} + carried (agents s.next) _ + (pending s + 0 + 0 + 0) = _ + 0
    abel

/-- A processor reads an event: what it brings is not on its way any more. -/
theorem pending_advanceSeen {p : Processor} {ev : Event} (hev : s.log[s.seen p]? = some ev) :
    pending s = pending (s.advanceSeen p) + held (p.takes ev) := by
  have hnext := unread_next p.takes hev
  have hother : ∀ q, q ≠ p → (s.advanceSeen p).seen q = s.seen q := fun q hq =>
    Function.update_of_ne hq _ _
  have hself : (s.advanceSeen p).seen p = s.seen p + 1 := Function.update_self _ _ _
  unfold pending onBus
  show _ = unread _ s.log _ + unread _ s.log _ + unread _ s.log _ + held (s.held.map Job.envelope) + _
  cases p with
  | filter =>
    rw [hself, hother .router (by decide), hother .forwarder (by decide), hnext]
    abel
  | router =>
    rw [hself, hother .filter (by decide), hother .forwarder (by decide), hnext]
    abel
  | forwarder =>
    rw [hself, hother .filter (by decide), hother .router (by decide), hnext]
    abel

theorem read_advanceSeen (hread : ∀ p, s.seen p ≤ s.log.length) {p : Processor} {ev : Event}
    (hev : s.log[s.seen p]? = some ev) (q : Processor) :
    (s.advanceSeen p).seen q ≤ (s.advanceSeen p).log.length := by
  obtain ⟨hlt, -⟩ := List.getElem?_eq_some_iff.mp hev
  show Function.update s.seen p (s.seen p + 1) q ≤ s.log.length
  by_cases hq : q = p
  · rw [hq, Function.update_self]
    omega
  · rw [Function.update_of_ne hq]
    exact hread q

/-- A processor passes over an event that brings it nothing. -/
theorem Conserved.skip (h : Conserved s γ) {p : Processor} {ev : Event}
    (hev : s.log[s.seen p]? = some ev) (htakes : p.takes ev = none) :
    Conserved (s.advanceSeen p) γ := by
  refine ⟨read_advanceSeen h.read hev, h.spawned, ?_⟩
  obtain ⟨answered, hmatch, hsum⟩ := h.sum
  refine ⟨answered, hmatch, ?_⟩
  rw [pending_advanceSeen hev, htakes, held_none, add_zero] at hsum
  exact hsum

/-- A processor takes an event and gives its envelope to a body that owes nothing. -/
theorem Conserved.take (h : Conserved s γ) {p : Processor} {ev : Event} {e : MessageEnvelope}
    (hev : s.log[s.seen p]? = some ev) (htakes : p.takes ev = some e) {t : Tid}
    (ht : t ∈ agents s.next) (hfree : γ t = none) :
    Conserved (s.advanceSeen p) (Function.update γ t (some e)) := by
  refine ⟨read_advanceSeen h.read hev, fun t' ht' => ?_, ?_⟩
  · have htt : t' ≠ t := by
      rintro rfl
      exact ht' ht
    rw [Function.update_of_ne htt]
    exact h.spawned t' ht'
  · obtain ⟨answered, hmatch, hsum⟩ := h.sum
    refine ⟨answered, hmatch, ?_⟩
    rw [pending_advanceSeen hev, htakes, held_some] at hsum
    show _ + carried (agents s.next) _ + _ = (submitted s : Multiset MessageEnvelope)
    rw [carried_take ht hfree, ← hsum]
    abel

/-- The forwarder takes an event and waits for a permit. -/
theorem Conserved.hold (h : Conserved s γ) (hnone : s.held = none) {ev : Event} {job : Job}
    (hev : s.log[s.seen .forwarder]? = some ev)
    (htakes : Processor.forwarder.takes ev = some job.envelope) :
    Conserved { s.advanceSeen .forwarder with held := some job } γ := by
  refine ⟨read_advanceSeen h.read hev, h.spawned, ?_⟩
  obtain ⟨answered, hmatch, hsum⟩ := h.sum
  refine ⟨answered, hmatch, ?_⟩
  have hpending : pending { s.advanceSeen .forwarder with held := some job } =
      pending (s.advanceSeen .forwarder) + {job.envelope} := by
    show onBus (s.advanceSeen .forwarder) + held (some job.envelope) =
      onBus (s.advanceSeen .forwarder) + held (s.held.map Job.envelope) + _
    rw [hnone, Option.map_none, held_none, add_zero, held_some]
  rw [pending_advanceSeen hev, htakes, held_some] at hsum
  rw [hpending]
  exact hsum

/-- The forwarder spawns a task for the event it holds. -/
theorem Conserved.spawn (h : Conserved s γ) {job : Job} (hheld : s.held = some job) :
    Conserved { s with held := none, next := s.next + 1 }
      (Function.update γ (.forward s.next) (some job.envelope)) := by
  have hnew : Tid.forward s.next ∉ agents s.next := by
    rw [forward_mem_agents]
    omega
  have hmem : Tid.forward s.next ∈ agents (s.next + 1) := by
    rw [forward_mem_agents]
    omega
  have hfree := h.spawned _ hnew
  refine ⟨h.read, fun t ht => ?_, ?_⟩
  · change t ∉ agents (s.next + 1) at ht
    rw [agents_succ, Finset.mem_insert, not_or] at ht
    rw [Function.update_of_ne ht.1]
    exact h.spawned t ht.2
  · obtain ⟨answered, hmatch, hsum⟩ := h.sum
    refine ⟨answered, hmatch, ?_⟩
    have hpending : pending s =
        pending { s with held := none, next := s.next + 1 } + {job.envelope} := by
      show onBus s + held (s.held.map Job.envelope) = onBus s + held (none : Option MessageEnvelope) + _
      rw [hheld, Option.map_some, held_some, held_none, add_zero]
    show _ + carried (agents (s.next + 1)) _ + _ = (submitted s : Multiset MessageEnvelope)
    rw [carried_take hmem hfree, agents_succ, carried_insert hnew hfree, ← hsum, hpending]
    abel

/-- What the books say plays no part. -/
theorem Conserved.books (h : Conserved s γ) (job : Tid → Option MessageEnvelope)
    (finished : List (Tid × MessageEnvelope)) :
    Conserved { s with job := job, finished := finished } γ :=
  ⟨h.read, h.spawned, h.sum⟩

end Invariant

/-! ## Every step keeps the invariant -/

section Steps

variable [Storage S]

/-- **One call of a body.** -/
theorem call_conserved {s : Shared S} {γ : Tid → Work} (h : Conserved s (Work.owed ∘ γ)) (t : Tid)
    (env : Env) (op : Op Event) (post : op.Res → Work → Prop) (hpre : keeps op post (γ t)) :
    ∃ g', post (call env op s).1 g' ∧
      Conserved (call env op s).2 (Work.owed ∘ Function.update γ t g') := by
  have hsame : ∀ (g : Work) (s' : Shared S), g.owed = (γ t).owed → Conserved s' (Work.owed ∘ γ) →
      Conserved s' (Work.owed ∘ Function.update γ t g) := by
    intro g s' hg h'
    rw [Function.comp_update, hg]
    exact (Function.update_eq_self t (Work.owed ∘ γ)).symm ▸ h'
  have hgone : ∀ (g : Work) (s' : Shared S), g.owed = none →
      Conserved s' (Function.update (Work.owed ∘ γ) t none) →
      Conserved s' (Work.owed ∘ Function.update γ t g) := by
    intro g s' hg h'
    rw [Function.comp_update, hg]
    exact h'
  cases op with
  | emit ev =>
    cases ev with
    | messageSubmitRequest e => exact False.elim hpre
    | messageAccepted e =>
      obtain ⟨hg, hpost⟩ := hpre
      exact ⟨_, hpost, hgone _ _ rfl (h.publish_hand hg rfl rfl (add_zero _))⟩
    | messageRouted e routeName clusterName fallback =>
      obtain ⟨hg, hpost⟩ := hpre
      exact ⟨_, hpost, hgone _ _ rfl (h.publish_hand hg rfl rfl (zero_add _))⟩
    | responseReady r =>
      obtain ⟨e, hg, hr, hpost⟩ := hpre
      exact ⟨_, hpost, hgone _ _ rfl (h.publish_response hg hr)⟩
    | _ =>
      refine ⟨γ t, hpre (), hsame _ _ rfl (h.publish_other (fun p => ?_) rfl)⟩
      cases p <;> rfl
  | tryEmit ev => exact False.elim hpre
  | newMessage => exact ⟨_, hpre.2 _, hsame _ _ rfl (h.world rfl)⟩
  | store m => exact ⟨_, hpre.2, hsame _ _ rfl (h.world rfl)⟩
  | update id f => exact ⟨_, hpre.2 _, hsame _ _ rfl (h.world rfl)⟩
  | _ => exact ⟨γ t, hpre _, hsame _ _ rfl (h.world rfl)⟩

/-- **Nothing is lost or doubled**, whatever happens. -/
theorem preserved_conserved :
    Preserved fun (s : Shared S) (γ : Tid → Work) => Conserved s (Work.owed ∘ γ) where
  submit s γ clock sessionId sequenceNumber systemId submitSm h := by
    have hdrawn : Conserved { s with world := { s.world with counter := (MessageEnvelope.new clock
        s.world.counter sessionId sequenceNumber systemId submitSm).2 } } (Work.owed ∘ γ) := h.world rfl
    exact hdrawn.publish_submit _
  other s γ ev hflows h := by
    have hresponse : response ev = none := by
      cases ev <;> first | rfl | cases hflows
    exact h.publish_other (takes_of_not_flows hflows) hresponse
  skip s γ p ev hev htakes h := h.skip hev htakes
  take s γ p ev e t hev htakes ht hfree h := by
    rw [Function.comp_update]
    have hmem : t ∈ agents s.next := by rcases ht with rfl | rfl <;> simp [agents]
    exact (h.take hev htakes hmem (congrArg Work.owed hfree)).books _ _
  hold s γ ev job hnone hev htakes h := h.hold hnone hev htakes
  spawn s γ job hheld h := by
    rw [Function.comp_update]
    exact (h.spawn hheld).books _ _
  call s γ t env op post hpre h := call_conserved h t env op post hpre
  finish s γ t e hjob h := h.books _ _

omit [Storage S] in
theorem conserved_boot (storage : S) :
    Conserved (boot storage).state (Work.owed ∘ fun _ => .nothing) := by
  refine ⟨fun _ => Nat.zero_le _, fun _ _ => rfl, [], .nil, ?_⟩
  have hcarried : carried (agents 0) (Work.owed ∘ fun _ : Tid => Work.nothing) = 0 :=
    carried_eq_zero fun _ _ => rfl
  show (0 : Multiset MessageEnvelope) + carried (agents 0) _ + 0 = 0
  rw [hcarried, add_zero, add_zero]

end Steps

/-- **One response per submission.**  In every state the pipeline can reach, over any storage and with
    any number of permits, the responses published are for different submissions, each with the
    session and the sequence number of its envelope; and when nothing is pending and nothing is
    running they are for all of them. -/
theorem one_response_each [Storage S] (storage : S) (concurrency : Nat) (labels : List Label)
    (c : Config S) (hrun : run (step concurrency) (boot storage) labels = some c) :
    ∃ answered : List MessageEnvelope, List.Forall₂ Answers answered (responses c.state) ∧
      (answered : Multiset MessageEnvelope) ≤ submitted c.state ∧
      (Quiescent c → (answered : Multiset MessageEnvelope) = submitted c.state) := by
  obtain ⟨γ, hγ⟩ := preserved_conserved.run (conserved_boot storage) hrun
  obtain ⟨answered, hmatch, hsum⟩ := hγ.inv.sum
  refine ⟨answered, hmatch, ?_, fun hquiet => ?_⟩
  · rw [← hsum, add_assoc]
    exact Multiset.le_add_right _ _
  · have hcarried : carried (agents c.state.next) (Work.owed ∘ γ) = 0 :=
      carried_eq_zero fun t _ =>
        congrArg Work.owed (hγ.nothing (by rw [hquiet.idle t]; rfl))
    have hpending : pending c.state = 0 := by
      unfold pending onBus
      rw [hquiet.read, hquiet.read, hquiet.read, hquiet.held, unread_end, unread_end, unread_end]
      rfl
    rw [← hsum, hcarried, hpending, add_zero, add_zero]

/-- Surroundings in which every message has a route, to a mock cluster. -/
def mockEnv : Env :=
  ⟨⟨⟨0, 0⟩, .listed⟩, some ⟨"route", "cluster", []⟩, some true, false, .timeout, false, false⟩

/-- A session submits a message. -/
def sampleSubmit (source destination : String) : Label :=
  .submit ⟨0, 0⟩ ⟨1⟩ 7 "client1"
    { sourceAddr := source, destAddr := destination, shortMessage := [72, 105] }

/-- So many calls of a body. -/
def calls (t : Tid) (n : Nat) : List Label := List.replicate n (.advance t mockEnv)

/-- So many events for a processor. -/
def reads (p : Processor) (n : Nat) : List Label := List.replicate n (.recv p)

/-- One message, from its submission to the end of the forward task. -/
def delivery : List Label :=
  sampleSubmit "+258841234567" "+258821234567" :: reads .filter 1 ++ calls .filter 1 ++
    reads .router 2 ++ calls .router 4 ++ reads .forwarder 3 ++ [.spawn] ++ calls (.forward 0) 7

/-- The message is delivered and everything read: there is one response, for it. -/
theorem delivery_answered :
    ∃ c answered, run (step 1) (boot (MemoryStorage.withConfig ⟨1000, 512, 10⟩))
        (delivery ++ reads .filter 5 ++ reads .router 4 ++ reads .forwarder 3) = some c ∧
      Quiescent c ∧ (submitted c.state).length = 1 ∧
      List.Forall₂ Answers answered (responses c.state) ∧
      (answered : Multiset MessageEnvelope) = submitted c.state := by
  have hexists : ∃ c, run (step 1) (boot (MemoryStorage.withConfig ⟨1000, 512, 10⟩))
        (delivery ++ reads .filter 5 ++ reads .router 4 ++ reads .forwarder 3) = some c ∧
      Quiescent c ∧ (submitted c.state).length = 1 := by
    refine ⟨_, rfl, ⟨fun p => ?_, rfl, fun t => ?_⟩, rfl⟩
    · cases p <;> rfl
    · rcases t with _ | _ | (_ | n) <;> rfl
  obtain ⟨c, hrun, hquiet, hlength⟩ := hexists
  obtain ⟨answered, hmatch, -, hall⟩ := one_response_each _ 1 _ c hrun
  exact ⟨c, answered, hrun, hquiet, hlength, hmatch, hall hquiet⟩

end Smppd.Pipeline
