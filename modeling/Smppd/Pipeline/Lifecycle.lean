/-
  The LIFE of a message on the bus.

  What the bus carries about one message is a word: the submission; the filter's verdict; the route, or that there
  is none; one `MessageForwarding` for each cluster that is tried, in the order of the route and counted from 1; and
  one outcome.  `Stage.step` reads that word, and `lives_run` says that nothing else is ever published, in whatever
  order the processors and the forward tasks of any number of messages are interleaved: an envelope is in one place
  at a time, in an event that is not taken yet, with the forwarder, or with a body, and only who has it publishes
  about it.

  A message that is to be retried has come to its end here too: `handle_retry` does nothing.
-/
import Smppd.Lib.Places
import Smppd.Pipeline.Responses
import Smppd.Pipeline.Rule

set_option linter.unusedVariables false

namespace Smppd.Pipeline

open Smppd.Store Smppd.Gateway Smppd.Bootstrap Prog Machine Record Places

deriving instance DecidableEq for SubmitSm, MessageEnvelope

/-! ## The stages of a message -/

/-- How far a message has come, as the bus tells it. -/
inductive Stage where
  | unknown
  | submitted (e : MessageEnvelope)
  | accepted (e : MessageEnvelope)
  /-- The clusters that are left to try, and how many have been tried. -/
  | routed (e : MessageEnvelope) (clusters : List String) (attempts : Nat)
  | ended
  deriving DecidableEq

/-- The session and the sequence number are those of the envelope. -/
def addressed (e : MessageEnvelope) (sessionId : SessionId) (sequenceNumber : UInt32) : Bool :=
  sessionId = e.sessionId && sequenceNumber = e.sequenceNumber

/-- What an event makes of the stage; `none` where it should not have been published. -/
def Stage.step : Stage → Event → Option Stage
  | .unknown, .messageSubmitRequest e => some (.submitted e)
  | .submitted e, .messageAccepted e' => if e' = e then some (.accepted e) else none
  | .submitted e, .messageRejected e' _ _ => if e' = e then some .ended else none
  | .accepted e, .messageRouted e' _ cluster fallback =>
    if e' = e then some (.routed e (cluster :: fallback) 0) else none
  | .accepted e, .messageFailed _ sessionId sequenceNumber _ _ _ =>
    if addressed e sessionId sequenceNumber then some .ended else none
  | .routed e (cluster :: clusters) attempts, .messageForwarding _ cluster' _ attempt =>
    if cluster' = cluster ∧ attempt = UInt32.ofNat (attempts + 1) then some (.routed e clusters (attempts + 1)) else none
  | .routed e _ attempts, .messageDelivered _ sessionId sequenceNumber _ _ =>
    if 0 < attempts ∧ addressed e sessionId sequenceNumber then some .ended else none
  | .routed e [] _, .messageFailed _ sessionId sequenceNumber _ _ _ =>
    if addressed e sessionId sequenceNumber then some .ended else none
  | .routed _ [] _, .messageRetryScheduled .. => some .ended
  | _, _ => none

/-- The attempts that are announced, with their numbers. -/
def attempts (events : List Event) : List (String × UInt32) :=
  events.filterMap fun
    | .messageForwarding _ cluster _ attempt => some (cluster, attempt)
    | _ => none

/-- The clusters of the routes that are announced. -/
def routes (events : List Event) : List (List String) :=
  events.filterMap fun
    | .messageRouted _ _ cluster fallback => some (cluster :: fallback)
    | _ => none

/-- One attempt for each cluster, numbered from `n + 1`. -/
def numbered : (n : Nat) → List String → List (String × UInt32)
  | _, [] => []
  | n, cluster :: clusters => (cluster, UInt32.ofNat (n + 1)) :: numbered (n + 1) clusters

/-- What has been tried when a message is at a stage. -/
def Tried : Stage → List Event → Prop
  | .routed _ clusters n, events => ∃ all, routes events = [all] ∧ attempts events ++ numbered n clusters = numbered 0 all
  | .ended, events => ∀ all ∈ routes events, routes events = [all] ∧ attempts events <+: numbered 0 all
  | _, events => routes events = [] ∧ attempts events = []

theorem attempts_append (events : List Event) (ev : Event) :
    attempts (events ++ [ev]) = attempts events ++ attempts [ev] := List.filterMap_append

theorem routes_append (events : List Event) (ev : Event) : routes (events ++ [ev]) = routes events ++ routes [ev] :=
  List.filterMap_append

theorem Tried.inTurn {stage : Stage} {events : List Event} (h : Tried stage events) {all : List String}
    (hall : all ∈ routes events) : routes events = [all] ∧ attempts events <+: numbered 0 all := by
  cases stage with
  | routed e clusters n =>
    obtain ⟨all', hroutes, htried⟩ := h
    rw [hroutes, List.mem_singleton] at hall
    rw [hall, hroutes, ← htried]
    exact ⟨rfl, List.prefix_append _ _⟩
  | ended => exact h all hall
  | _ =>
    rw [h.1] at hall
    exact absurd hall List.not_mem_nil

/-- An end adds nothing to what was tried. -/
theorem Tried.last {stage : Stage} {events : List Event} {ev : Event} (h : Tried stage events)
    (hroutes : routes [ev] = []) (hattempts : attempts [ev] = []) : Tried .ended (events ++ [ev]) := by
  intro all hall
  rw [routes_append, hroutes, List.append_nil] at hall ⊢
  rw [attempts_append, hattempts, List.append_nil]
  exact h.inTurn hall

theorem Tried.step {stage stage' : Stage} {events : List Event} {ev : Event} (h : Tried stage events)
    (hstep : stage.step ev = some stage') : Tried stage' (events ++ [ev]) := by
  unfold Stage.step at hstep
  split at hstep
  · obtain rfl := Option.some.inj hstep
    refine ⟨?_, ?_⟩
    · rw [routes_append, h.1]
      rfl
    · rw [attempts_append, h.2]
      rfl
  · obtain ⟨-, hstage⟩ := Option.ite_none_right_eq_some.mp hstep
    obtain rfl := Option.some.inj hstage
    refine ⟨?_, ?_⟩
    · rw [routes_append, h.1]
      rfl
    · rw [attempts_append, h.2]
      rfl
  · obtain ⟨-, hstage⟩ := Option.ite_none_right_eq_some.mp hstep
    obtain rfl := Option.some.inj hstage
    exact h.last rfl rfl
  · -- the route is told
    obtain ⟨-, hstage⟩ := Option.ite_none_right_eq_some.mp hstep
    obtain rfl := Option.some.inj hstage
    rename_i e e' routeName cluster fallback
    refine ⟨cluster :: fallback, ?_, ?_⟩
    · rw [routes_append, h.1]
      rfl
    · rw [attempts_append, h.2]
      rfl
  · obtain ⟨-, hstage⟩ := Option.ite_none_right_eq_some.mp hstep
    obtain rfl := Option.some.inj hstage
    exact h.last rfl rfl
  · -- the next cluster is tried
    obtain ⟨⟨rfl, rfl⟩, hstage⟩ := Option.ite_none_right_eq_some.mp hstep
    obtain rfl := Option.some.inj hstage
    obtain ⟨all, hroutes, htried⟩ := h
    refine ⟨all, ?_, ?_⟩
    · rw [routes_append, hroutes]
      rfl
    · rw [attempts_append, List.append_assoc]
      exact htried
  · obtain ⟨-, hstage⟩ := Option.ite_none_right_eq_some.mp hstep
    obtain rfl := Option.some.inj hstage
    exact h.last rfl rfl
  · obtain ⟨-, hstage⟩ := Option.ite_none_right_eq_some.mp hstep
    obtain rfl := Option.some.inj hstage
    exact h.last rfl rfl
  · obtain rfl := Option.some.inj hstep
    exact h.last rfl rfl
  · cases hstep

/-- What was tried, all along a life. -/
theorem tried_run {stage : Stage} {events : List Event} (hrun : run Stage.step .unknown events = some stage) :
    Tried stage events := by
  have hstart : Tried .unknown [] := ⟨rfl, rfl⟩
  exact run_word hstart (fun _ _ _ _ h hstep => h.step hstep) hrun

/-- The message will not be tried any more, though no cluster has taken it. -/
def givesUp : Event → Bool
  | .messageFailed .. | .messageRetryScheduled .. => true
  | _ => false

/-- The message has come to its end. -/
def isOutcome : Event → Bool
  | .messageRejected .. | .messageDelivered .. | .messageFailed .. | .messageRetryScheduled .. => true
  | _ => false

theorem step_outcome {stage stage' : Stage} {ev : Event} (hev : isOutcome ev = true)
    (hstep : stage.step ev = some stage') : stage' = .ended := by
  unfold Stage.step at hstep
  split at hstep <;> first
    | (cases hev; done)
    | (cases hstep; done)
    | exact (Option.some.inj hstep).symm
    | exact (Option.some.inj (Option.ite_none_right_eq_some.mp hstep).2).symm

/-- A route that was told has been tried to its end when it is given up. -/
theorem step_givesUp {stage stage' : Stage} {events : List Event} {ev : Event} (h : Tried stage events)
    (hev : givesUp ev = true) (hstep : stage.step ev = some stage') {all : List String} (hall : all ∈ routes events) :
    attempts events = numbered 0 all := by
  cases stage with
  | routed e clusters n =>
    obtain ⟨all', hroutes, htried⟩ := h
    rw [hroutes, List.mem_singleton] at hall
    have hnone : clusters = [] := by
      cases clusters with
      | nil => rfl
      | cons cluster clusters => cases ev <;> first | (cases hev; done) | cases hstep
    rw [hnone] at htried
    rw [hall, ← htried]
    exact (List.append_nil _).symm
  | ended => cases ev <;> cases hstep
  | _ =>
    rw [h.1] at hall
    exact absurd hall List.not_mem_nil

theorem run_ended {events : List Event} {stage : Stage} (h : run Stage.step .ended events = some stage) : events = [] := by
  cases events with
  | nil => rfl
  | cons ev events =>
    obtain ⟨_, hstep, -⟩ := run_cons_eq_some.mp h
    cases ev <;> cases hstep

/-- An envelope that is somewhere, and how far its message has come. -/
structure Charge where
  envelope : MessageEnvelope
  stage : Stage

theorem step_ne_unknown (stage : Stage) (ev : Event) : stage.step ev ≠ some .unknown := by
  intro heq
  unfold Stage.step at heq
  split at heq <;> try split at heq
  all_goals cases heq

/-- How the bus is read. -/
def reading : Reading Charge MessageId Event Stage where
  key x := x.envelope.messageId
  stage := Charge.stage
  topic := about
  step := Stage.step
  start := .unknown
  ended stage := stage = .ended
  left := step_ne_unknown

/-! ## Where the envelopes are -/

/-- What an event hands to a processor. -/
def Processor.charge : Processor → Event → Option Charge
  | .filter, .messageSubmitRequest e => some ⟨e, .submitted e⟩
  | .router, .messageAccepted e => some ⟨e, .accepted e⟩
  | .forwarder, .messageRouted e _ cluster fallback => some ⟨e, .routed e (cluster :: fallback) 0⟩
  | _, _ => none

/-- What waits for a permit. -/
def Job.charge (job : Job) : Charge :=
  ⟨job.envelope, .routed job.envelope (job.clusterName :: job.fallbackClusters) 0⟩

/-- The places of an envelope. -/
inductive Place where
  /-- The event with this number is not taken yet. -/
  | bus (p : Processor) (n : Nat)
  /-- The forwarder waits for a permit. -/
  | permit
  | body (t : Tid)
  deriving DecidableEq

variable {S : Type}

/-- What is where; `γ` says what the bodies have. -/
def place (s : Shared S) (γ : Tid → Option Charge) : Place → Option Charge
  | .bus p n => if s.seen p ≤ n then s.log[n]?.bind p.charge else none
  | .permit => s.held.map Job.charge
  | .body t => γ t

section Placed

variable {s : Shared S} {γ : Tid → Option Charge}

theorem place_body (t : Tid) (g : Option Charge) :
    place s (Function.update γ t g) = Function.update (place s γ) (.body t) g := by
  funext i
  cases i with
  | body t' =>
    by_cases ht : t' = t
    · rw [ht, Function.update_self]
      exact Function.update_self t g γ
    · rw [Function.update_of_ne fun heq => ht (Place.body.inj heq)]
      exact Function.update_of_ne ht g γ
  | _ => exact (Function.update_of_ne (by rintro ⟨⟩) _ _).symm

theorem place_hold (job : Option Job) :
    place { s with held := job } γ = Function.update (place s γ) .permit (job.map Job.charge) := by
  funext i
  cases i with
  | permit => exact (Function.update_self Place.permit (job.map Job.charge) (place s γ)).symm
  | _ => exact (Function.update_of_ne (by rintro ⟨⟩) _ _).symm

/-- A processor has read one more event. -/
theorem place_advanceSeen (p : Processor) :
    place (s.advanceSeen p) γ = Function.update (place s γ) (.bus p (s.seen p)) none := by
  funext i
  cases i with
  | bus q n =>
    show (if Function.update s.seen p (s.seen p + 1) q ≤ n then s.log[n]?.bind q.charge else none) = _
    by_cases hq : q = p
    · subst hq
      rw [Function.update_self]
      by_cases hn : n = s.seen q
      · subst hn
        rw [if_neg (Nat.not_succ_le_self _), Function.update_self]
      · rw [Function.update_of_ne fun heq => hn (Place.bus.inj heq).2]
        have hiff : s.seen q + 1 ≤ n ↔ s.seen q ≤ n := by omega
        exact if_congr hiff rfl rfl
    · rw [Function.update_of_ne hq, Function.update_of_ne fun heq => hq (Place.bus.inj heq).1]
      rfl
  | _ => exact (Function.update_of_ne (by rintro ⟨⟩) _ _).symm

/-- An event that hands nothing over. -/
theorem place_publish_none {ev : Event} (hev : ∀ p : Processor, p.charge ev = none) :
    place (s.publish ev) γ = place s γ := by
  funext i
  cases i with
  | bus p n =>
    show (if s.seen p ≤ n then (s.log ++ [ev])[n]?.bind p.charge else none) = _
    have hbind : (s.log ++ [ev])[n]?.bind p.charge = s.log[n]?.bind p.charge := by
      rcases Nat.lt_trichotomy n s.log.length with hlt | rfl | hgt
      · rw [List.getElem?_append_left hlt]
      · rw [List.getElem?_concat_length, List.getElem?_eq_none (Nat.le_refl _)]
        exact hev p
      · rw [List.getElem?_eq_none (by rw [List.length_append]; exact hgt), List.getElem?_eq_none (Nat.le_of_lt hgt)]
    rw [hbind]
    rfl
  | _ => rfl

/-- An event that hands something to one of the processors. -/
theorem place_publish_some {ev : Event} {p : Processor} {x : Charge} (hread : s.seen p ≤ s.log.length)
    (hev : p.charge ev = some x) (hothers : ∀ q : Processor, q ≠ p → q.charge ev = none) :
    place (s.publish ev) γ = Function.update (place s γ) (.bus p s.log.length) (some x) := by
  funext i
  cases i with
  | bus q n =>
    show (if s.seen q ≤ n then (s.log ++ [ev])[n]?.bind q.charge else none) = _
    rcases Nat.lt_trichotomy n s.log.length with hlt | rfl | hgt
    · rw [Function.update_of_ne fun heq => Nat.ne_of_lt hlt (Place.bus.inj heq).2, List.getElem?_append_left hlt]
      rfl
    · rw [List.getElem?_concat_length, Option.bind_some]
      by_cases hq : q = p
      · subst hq
        rw [if_pos hread, Function.update_self, hev]
      · rw [Function.update_of_ne fun heq => hq (Place.bus.inj heq).1, hothers q hq, ite_self]
        show none = if _ then s.log[s.log.length]?.bind q.charge else none
        rw [List.getElem?_eq_none (Nat.le_refl _), Option.bind_none, ite_self]
    · rw [Function.update_of_ne fun heq => Nat.ne_of_gt hgt (Place.bus.inj heq).2,
        List.getElem?_eq_none (by rw [List.length_append]; exact hgt)]
      show _ = if _ then s.log[n]?.bind q.charge else none
      rw [List.getElem?_eq_none (Nat.le_of_lt hgt)]
  | _ => exact (Function.update_of_ne (by rintro ⟨⟩) _ _).symm

end Placed

/-! ## What a body may publish -/

/-- The event hands the envelope to the next processor. -/
def hands : Event → Bool
  | .messageAccepted _ | .messageRouted .. => true
  | _ => false

/-- What a body still has when it has published an event. -/
def Charge.after (x : Charge) (ev : Event) (stage : Stage) : Option Charge :=
  if hands ev ∨ stage = .ended then none else some { x with stage }

/-- A body publishes what comes next in the life of the message that it has. -/
def tells : Spec (Op Event) Op.Res (Option Charge)
  | .emit (.messageSubmitRequest _), _, _ => False
  | .emit ev, post, g =>
    match about ev with
    | none => post () g
    | some id => ∃ x stage, g = some x ∧ id = x.envelope.messageId ∧ x.stage.step ev = some stage ∧
        post () (x.after ev stage)
  | .tryEmit _, _, _ => False
  | _, post, g => ∀ r, post r g

/-- In the end it has nothing. -/
def told (g : Option Charge) : Prop := g = none

theorem addressed_self (e : MessageEnvelope) : addressed e e.sessionId e.sequenceNumber = true := by
  rw [addressed, decide_eq_true rfl, decide_eq_true rfl]
  rfl

theorem tells_rejectMessage (e : MessageEnvelope) (reason : String) (status : UInt32) :
    (FilterProcessor.rejectMessage e reason status).wp tells (fun _ => told) (some ⟨e, .submitted e⟩) :=
  ⟨_, .ended, rfl, rfl, if_pos rfl, rfl⟩

theorem tells_processMessage (e : MessageEnvelope) :
    (FilterProcessor.processMessage e).wp tells (fun _ => told) (some ⟨e, .submitted e⟩) := by
  unfold FilterProcessor.processMessage
  split
  · exact tells_rejectMessage e _ _
  · split
    · exact tells_rejectMessage e _ _
    · exact ⟨_, .accepted e, rfl, rfl, if_pos rfl, rfl⟩

theorem tells_routeMessage (e : MessageEnvelope) :
    (RouterProcessor.routeMessage e).wp tells (fun _ => told) (some ⟨e, .accepted e⟩) := by
  unfold RouterProcessor.routeMessage
  intro stored _ route
  cases route with
  | some result => exact ⟨_, .routed e (result.clusterName :: result.fallback) 0, rfl, rfl, if_pos rfl, rfl⟩
  | none => exact fun updated => ⟨_, .ended, rfl, rfl, if_pos (addressed_self e), rfl⟩

/-- An attempt publishes nothing. -/
theorem tells_tryForwardToCluster (name : String) (e : MessageEnvelope)
    {post : Except ForwarderProcessor.AttemptError String → Option Charge → Prop} {g : Option Charge}
    (hpost : ∀ r, post r g) : (ForwarderProcessor.tryForwardToCluster name e).wp tells post g := by
  unfold ForwarderProcessor.tryForwardToCluster
  intro cluster
  rcases cluster with _ | mock
  · exact hpost _
  · cases mock with
    | true => exact hpost _
    | false =>
      intro connection
      cases connection with
      | false => exact hpost _
      | true =>
        intro reply
        cases reply with
        | submitSmResp status messageId =>
          show Prog.wp _ (if status = 0 then _ else _) post _
          split
          · exact hpost _
          · exact hpost _
        | _ => exact hpost _

/-- The attempts are announced one by one; the first that succeeds is the last, and if none does, all were tried. -/
theorem tells_tryClusters (e : MessageEnvelope) (names : List String) (attempt : Nat)
    (last : Option UInt32 × Option String)
    {post : Except (Option UInt32 × Option String) (String × String) → Option Charge → Prop}
    (hreached : ∀ r names' attempts, 0 < attempts → post (.ok r) (some ⟨e, .routed e names' attempts⟩))
    (hfailed : ∀ r, post (.error r) (some ⟨e, .routed e [] (attempt + names.length)⟩)) :
    (ForwarderProcessor.tryClusters e names attempt last).wp tells post (some ⟨e, .routed e names attempt⟩) := by
  induction names generalizing attempt last with
  | nil => exact hfailed _
  | cons name rest ih =>
    unfold ForwarderProcessor.tryClusters
    rw [wp_bind]
    refine ⟨_, .routed e rest (attempt + 1), rfl, rfl, if_pos ⟨rfl, rfl⟩, ?_⟩
    show Prog.wp _ _ _ (some _)
    rw [wp_ret, wp_bind]
    refine tells_tryForwardToCluster name e fun r => ?_
    cases r with
    | ok smscMessageId => exact hreached _ _ _ (Nat.succ_pos attempt)
    | error err =>
      refine ih _ _ fun r => ?_
      rw [Nat.add_assoc, Nat.add_comm 1]
      exact hfailed r

theorem tells_forwardMessage (e : MessageEnvelope) (name : String) (fallback : List String) :
    (ForwarderProcessor.forwardMessage e name fallback).wp tells (fun _ => told) (some ⟨e, .routed e (name :: fallback) 0⟩) := by
  unfold ForwarderProcessor.forwardMessage
  intro start
  show Prog.wp _ (ForwarderProcessor.tryClusters e _ _ _ >>= _) _ _
  rw [wp_bind]
  refine tells_tryClusters e _ _ _ (fun reached names' attempts hattempts => ?_) fun last => ?_
  · intro clock updated
    refine ⟨_, .ended, rfl, rfl, ?_, rfl⟩
    cases names' <;> exact if_pos ⟨hattempts, addressed_self e⟩
  · intro current clock
    dsimp only [Prog.bind]
    cases (current.map fun m => m.canRetry clock).getD false with
    | true => exact fun updated => ⟨_, .ended, rfl, rfl, rfl, rfl⟩
    | false => exact fun updated => ⟨_, .ended, rfl, rfl, if_pos (addressed_self e), rfl⟩

/-! ## Every step keeps to it -/

/-- The bus follows the envelopes. -/
structure Orderly (s : Shared S) (γ : Tid → Option Charge) : Prop where
  followed : Followed reading (place s γ) s.log
  /-- The ids of what was published have been drawn. -/
  below : ∀ ev ∈ s.log, ∀ id, about ev = some id → id.val.toNat < s.world.counter
  read : ∀ p, s.seen p ≤ s.log.length
  spawned : ∀ n, s.next ≤ n → γ (.forward n) = none

section Steps

variable {s : Shared S} {γ : Tid → Option Charge}

theorem spawned_update (hspawned : ∀ n, s.next ≤ n → γ (.forward n) = none) {t : Tid} {x : Charge}
    (ht : γ t = some x) (g : Option Charge) : ∀ n, s.next ≤ n → Function.update γ t g (.forward n) = none := by
  intro n hn
  have hne : Tid.forward n ≠ t := by
    rintro rfl
    exact absurd ((hspawned n hn).symm.trans ht) (Option.some_ne_none x).symm
  rw [Function.update_of_ne hne]
  exact hspawned n hn

/-- An event about no message. -/
theorem Orderly.aside (h : Orderly s γ) {ev : Event} (habout : about ev = none) : Orderly (s.publish ev) γ := by
  have hcharge : ∀ p : Processor, p.charge ev = none := by
    intro p
    cases p <;> cases ev <;> first | rfl | exact nomatch habout
  refine ⟨?_, fun ev' hev' id hid => ?_, read_publish h.read ev, h.spawned⟩
  · rw [place_publish_none hcharge]
    exact h.followed.aside habout
  · rcases List.mem_append.mp hev' with hev' | hev'
    · exact h.below ev' hev' id hid
    · obtain rfl := List.mem_singleton.mp hev'
      exact absurd (habout.symm.trans hid) (Option.some_ne_none id).symm

theorem Orderly.below_publish (h : Orderly s γ) {t : Tid} {x : Charge} (ht : γ t = some x) {ev : Event}
    (habout : about ev = some x.envelope.messageId) :
    ∀ ev' ∈ (s.publish ev).log, ∀ id, about ev' = some id → id.val.toNat < s.world.counter := by
  intro ev' hev' id hid
  rcases List.mem_append.mp hev' with hev' | hev'
  · exact h.below ev' hev' id hid
  · obtain rfl := List.mem_singleton.mp hev'
    obtain rfl := Option.some.inj (habout.symm.trans hid)
    -- something has been published about the message before, for it has begun
    by_contra hnot
    have htold := h.followed.told (.body t) x ht
    have hnone : concerning reading.topic (reading.key x) s.log = [] :=
      List.filter_eq_nil_iff.mpr fun e he heq => hnot (h.below e he _ (of_decide_eq_true heq))
    rw [Reading.told, hnone] at htold
    exact h.followed.begun (.body t) x ht (Option.some.inj htold).symm

theorem step_messageAccepted {stage stage' : Stage} {e : MessageEnvelope}
    (h : stage.step (.messageAccepted e) = some stage') : stage' = .accepted e := by
  cases stage with
  | submitted e' =>
    obtain ⟨rfl, hstage⟩ := Option.ite_none_right_eq_some.mp h
    exact (Option.some.inj hstage).symm
  | routed e' clusters attempts => cases clusters <;> cases h
  | _ => cases h

theorem step_messageRouted {stage stage' : Stage} {e : MessageEnvelope} {routeName cluster : String}
    {fallback : List String} (h : stage.step (.messageRouted e routeName cluster fallback) = some stage') :
    stage' = .routed e (cluster :: fallback) 0 := by
  cases stage with
  | accepted e' =>
    obtain ⟨rfl, hstage⟩ := Option.ite_none_right_eq_some.mp h
    exact (Option.some.inj hstage).symm
  | routed e' clusters attempts => cases clusters <;> cases h
  | _ => cases h

/-- A body publishes what comes next. -/
theorem Orderly.publish (h : Orderly s γ) {t : Tid} {x : Charge} (ht : γ t = some x) {ev : Event} {stage : Stage}
    (hsubmit : ∀ e, ev ≠ .messageSubmitRequest e) (habout : about ev = some x.envelope.messageId)
    (hstep : x.stage.step ev = some stage) :
    Orderly (s.publish ev) (Function.update γ t (x.after ev stage)) := by
  refine ⟨?_, h.below_publish ht habout, read_publish h.read ev, spawned_update h.spawned ht _⟩
  have hbody : place s γ (.body t) = some x := ht
  -- what is handed over goes on, and moves to the bus
  have hgiven : ∀ (p : Processor) (y : Charge), p.charge ev = some y → (∀ q : Processor, q ≠ p → q.charge ev = none) →
      y.envelope.messageId = x.envelope.messageId → y.stage = stage →
      Followed reading (place (s.publish ev) (Function.update γ t none)) (s.publish ev).log := by
    intro p y hcharge hothers hkey hstage
    have hnext : Followed reading (Function.update (place s γ) (.body t) (some y)) (s.publish ev).log := by
      refine h.followed.next hbody habout hstep (fun z hz => ?_) (fun hnone => (nomatch hnone))
      obtain rfl := Option.some.inj hz
      exact ⟨hkey, hstage⟩
    have hempty : Function.update (place s γ) (.body t) (some y) (.bus p s.log.length) = none := by
      rw [Function.update_of_ne (by rintro ⟨⟩)]
      show (if _ then s.log[s.log.length]?.bind p.charge else none) = none
      rw [List.getElem?_eq_none (Nat.le_refl _), Option.bind_none, ite_self]
    have hmove := hnext.move (Function.update_self _ _ _) hempty
    rwa [Function.update_idem, ← place_body, ← place_publish_some (h.read p) hcharge hothers] at hmove
  by_cases hhands : hands ev = true
  · have hafter : x.after ev stage = none := if_pos (.inl hhands)
    rw [hafter]
    cases ev with
    | messageAccepted e =>
      refine hgiven .router ⟨e, .accepted e⟩ rfl (fun q hq => ?_) (Option.some.inj habout) (step_messageAccepted hstep).symm
      cases q <;> first | rfl | exact absurd rfl hq
    | messageRouted e routeName cluster fallback =>
      refine hgiven .forwarder ⟨e, .routed e (cluster :: fallback) 0⟩ rfl (fun q hq => ?_) (Option.some.inj habout)
        (step_messageRouted hstep).symm
      cases q <;> first | rfl | exact absurd rfl hq
    | _ => cases hhands
  · have hcharge : ∀ p : Processor, p.charge ev = none := by
      intro p
      cases p <;> cases ev <;> first | rfl | exact absurd rfl hhands | exact absurd rfl (hsubmit _)
    rw [place_publish_none hcharge, place_body]
    refine h.followed.next hbody habout hstep (fun y hy => ?_) (fun hnone => ?_)
    · obtain ⟨-, hy⟩ := Option.ite_none_left_eq_some.mp hy
      obtain rfl := Option.some.inj hy
      exact ⟨rfl, rfl⟩
    · by_contra hended
      exact nomatch (if_neg (not_or_intro hhands hended)).symm.trans hnone

/-- A processor reads an event that brings it nothing. -/
theorem Orderly.skip (h : Orderly s γ) {p : Processor} {ev : Event} (hev : s.log[s.seen p]? = some ev)
    (hcharge : p.charge ev = none) : Orderly (s.advanceSeen p) γ := by
  refine ⟨?_, h.below, read_advanceSeen h.read hev, h.spawned⟩
  have hplace : place s γ (.bus p (s.seen p)) = none := by
    show (if s.seen p ≤ s.seen p then s.log[s.seen p]?.bind p.charge else none) = none
    rw [if_pos (Nat.le_refl _), hev]
    exact hcharge
  rw [place_advanceSeen, ← hplace, Function.update_eq_self]
  exact h.followed

/-- A processor takes an event, and gives what it brings to a place that is empty. -/
theorem Orderly.taken (h : Orderly s γ) {p : Processor} {ev : Event} {x : Charge} {i : Place}
    (hev : s.log[s.seen p]? = some ev) (hcharge : p.charge ev = some x) (hempty : place s γ i = none) :
    Followed reading (Function.update (place (s.advanceSeen p) γ) i (some x)) s.log := by
  have hplace : place s γ (.bus p (s.seen p)) = some x := by
    show (if s.seen p ≤ s.seen p then s.log[s.seen p]?.bind p.charge else none) = some x
    rw [if_pos (Nat.le_refl _), hev]
    exact hcharge
  rw [place_advanceSeen]
  exact h.followed.move hplace hempty

theorem Orderly.take (h : Orderly s γ) {p : Processor} {ev : Event} {x : Charge} {t : Tid}
    (hev : s.log[s.seen p]? = some ev) (hcharge : p.charge ev = some x) (ht : t = .filter ∨ t = .router)
    (hfree : γ t = none) : Orderly (s.advanceSeen p) (Function.update γ t (some x)) := by
  refine ⟨?_, h.below, read_advanceSeen h.read hev, fun n hn => ?_⟩
  · rw [place_body]
    exact h.taken hev hcharge hfree
  · rw [Function.update_of_ne (by rcases ht with rfl | rfl <;> rintro ⟨⟩)]
    exact h.spawned n hn

theorem Orderly.hold (h : Orderly s γ) {ev : Event} {job : Job} (hnone : s.held = none)
    (hev : s.log[s.seen .forwarder]? = some ev) (hcharge : Processor.forwarder.charge ev = some job.charge) :
    Orderly { s.advanceSeen .forwarder with held := some job } γ := by
  refine ⟨?_, h.below, read_advanceSeen h.read hev, h.spawned⟩
  rw [place_hold]
  exact h.taken hev hcharge (congrArg (Option.map Job.charge) hnone)

theorem Orderly.spawn (h : Orderly s γ) {job : Job} (hheld : s.held = some job) :
    Orderly { s with held := none, next := s.next + 1 } (Function.update γ (.forward s.next) (some job.charge)) := by
  refine ⟨?_, h.below, h.read, fun n hn => ?_⟩
  · rw [place_body]
    show Followed reading (Function.update (place { s with held := none } γ) _ _) s.log
    rw [place_hold]
    exact h.followed.move (congrArg (Option.map Job.charge) hheld) (h.spawned s.next (Nat.le_refl _))
  · change s.next + 1 ≤ n at hn
    rw [Function.update_of_ne fun heq => Nat.ne_of_gt hn (Tid.forward.inj heq)]
    exact h.spawned n (Nat.le_of_succ_le hn)

/-- A session submits a message, under an id that was not drawn before. -/
theorem Orderly.submit (h : Orderly s γ) (clock : Clock) (sessionId : SessionId) (sequenceNumber : UInt32)
    (systemId : String) (submitSm : SubmitSm) (hcounter : s.world.counter < 2 ^ 64) :
    Orderly (s.submit clock sessionId sequenceNumber systemId submitSm) γ := by
  have hid : (MessageEnvelope.new clock s.world.counter sessionId sequenceNumber systemId submitSm).1.messageId.val.toNat =
      s.world.counter := UInt64.toNat_ofNat_of_lt' hcounter
  refine ⟨?_, fun ev hev id habout => ?_, read_publish h.read _, h.spawned⟩
  · have hothers : ∀ q : Processor, q ≠ .filter → q.charge (.messageSubmitRequest
        (MessageEnvelope.new clock s.world.counter sessionId sequenceNumber systemId submitSm).1) = none := by
      intro q hq
      cases q <;> first | rfl | exact absurd rfl hq
    show Followed reading (place (s.publish _) γ) _
    rw [place_publish_some (h.read .filter) rfl hothers]
    refine h.followed.begin ?_ rfl (fun ev hev habout => ?_) rfl
    · show (if _ then s.log[s.log.length]?.bind _ else none) = none
      rw [List.getElem?_eq_none (Nat.le_refl _), Option.bind_none, ite_self]
    · exact absurd (h.below ev hev _ habout) (Nat.not_lt_of_le (Nat.le_of_eq hid.symm))
  · show id.val.toNat < s.world.counter + 1
    rcases List.mem_append.mp hev with hev | hev
    · exact Nat.lt_succ_of_lt (h.below ev hev id habout)
    · obtain rfl := List.mem_singleton.mp hev
      rw [← Option.some.inj habout, hid]
      exact Nat.lt_succ_self _

/-- Only what was published counts, and what was drawn. -/
theorem Orderly.world (h : Orderly s γ) {w : World S Event} (hsent : w.sent = s.world.sent)
    (hcounter : s.world.counter ≤ w.counter) : Orderly { s with world := w } γ := by
  have hlog : Shared.log { s with world := w } = s.log := hsent
  have hplace : place { s with world := w } γ = place s γ := by
    funext i
    cases i with
    | bus p n =>
      show (if s.seen p ≤ n then (Shared.log { s with world := w })[n]?.bind p.charge else none) = _
      rw [hlog]
      rfl
    | _ => rfl
  refine ⟨?_, fun ev hev id hid => ?_, fun p => ?_, h.spawned⟩
  · rw [hplace, hlog]
    exact h.followed
  · rw [hlog] at hev
    exact Nat.lt_of_lt_of_le (h.below ev hev id hid) hcounter
  · rw [hlog]
    exact h.read p

/-- What the books say plays no part. -/
theorem Orderly.books (h : Orderly s γ) (job : Tid → Option MessageEnvelope) (finished : List (Tid × MessageEnvelope)) :
    Orderly { s with job := job, finished := finished } γ := by
  refine ⟨?_, h.below, h.read, h.spawned⟩
  have hplace : place { s with job := job, finished := finished } γ = place s γ := by
    funext i
    cases i <;> rfl
  rw [hplace]
  exact h.followed

/-- **One call of a body.** -/
theorem call_orderly [Storage S] (h : Orderly s γ) (t : Tid) (env : Env) (op : Op Event)
    (post : op.Res → Option Charge → Prop) (hpre : tells op post (γ t)) :
    ∃ g', post (call env op s).1 g' ∧ Orderly (call env op s).2 (Function.update γ t g') := by
  have hsame : ∀ s' : Shared S, Orderly s' γ → Orderly s' (Function.update γ t (γ t)) := by
    intro s' h'
    rwa [Function.update_eq_self]
  cases op with
  | emit ev =>
    by_cases hsubmit : ∃ e, ev = .messageSubmitRequest e
    · obtain ⟨e, rfl⟩ := hsubmit
      exact hpre.elim
    · have hsubmit : ∀ e, ev ≠ .messageSubmitRequest e := fun e heq => hsubmit ⟨e, heq⟩
      cases habout : about ev with
      | none =>
        have hpost : post () (γ t) := by
          cases ev <;> first | exact hpre | cases habout
        exact ⟨γ t, hpost, hsame _ (h.aside habout)⟩
      | some id =>
        have hnext : ∃ x stage, γ t = some x ∧ id = x.envelope.messageId ∧ x.stage.step ev = some stage ∧
            post () (x.after ev stage) := by
          cases ev <;> first
            | exact absurd rfl (hsubmit _)
            | (obtain rfl := Option.some.inj habout; exact hpre)
            | cases habout
        obtain ⟨x, stage, ht, rfl, hstep, hpost⟩ := hnext
        exact ⟨_, hpost, h.publish ht hsubmit habout hstep⟩
  | tryEmit ev => exact hpre.elim
  | newMessage => exact ⟨γ t, hpre _, hsame _ (h.world rfl (Nat.le_succ _))⟩
  | _ => exact ⟨γ t, hpre _, hsame _ (h.world rfl (Nat.le_refl _))⟩

end Steps

/-! ## Whole runs -/

section Runs

variable [Storage S]

/-- **Every step keeps to it.** -/
theorem upholds_orderly : Upholds tells told (Orderly (S := S)) where
  submit s γ clock sessionId sequenceNumber systemId submitSm hfresh h := h.submit _ _ _ _ _ hfresh
  other s γ ev _ habout _ h := h.aside habout
  skip s γ p ev hev htakes _ h := by
    have hcharge : p.charge ev = none := by
      cases p <;> cases ev <;> first | rfl | cases htakes
    exact h.skip hev hcharge
  filter s γ e hev hfree _ h := ⟨_, tells_processMessage e, (h.take hev rfl (.inl rfl) hfree).books _ _⟩
  router s γ e hev hfree _ h := ⟨_, tells_routeMessage e, (h.take hev rfl (.inr rfl) hfree).books _ _⟩
  hold s γ e routeName cluster fallback hnone hev _ h := h.hold hnone hev rfl
  spawn s γ job hjob _ h :=
    ⟨_, tells_forwardMessage job.envelope job.clusterName job.fallbackClusters, (h.spawn hjob).books _ _⟩
  call s γ t env op post _ hpre h := call_orderly h t env op post hpre
  finish s γ t e _ _ h := h.books _ _

omit [Storage S] in
theorem orderly_boot (storage : S) : Orderly (boot storage).state fun _ => none := by
  refine ⟨followed_nil fun i => ?_, fun ev hev => (nomatch hev), fun _ => Nat.le_refl _, fun _ _ => rfl⟩
  cases i with
  | bus p n =>
    show (if 0 ≤ n then ([] : List Event)[n]?.bind p.charge else none) = none
    rw [List.getElem?_nil, Option.bind_none, ite_self]
  | _ => rfl

end Runs

/-- **The lives of the messages**, as the bus tells them. -/
structure Lives (c : Config S) : Prop where
  /-- What is published about a message is a life; when nothing is pending, it is a whole one. -/
  told : ∀ id, ∃ stage, run Stage.step .unknown (concerning about id c.state.log) = some stage ∧
    (Quiescent c → stage = .unknown ∨ stage = .ended)
  /-- There is one route, and its clusters are tried in turn. -/
  inTurn : ∀ id, ∀ all ∈ routes (concerning about id c.state.log),
    routes (concerning about id c.state.log) = [all] ∧ attempts (concerning about id c.state.log) <+: numbered 0 all
  /-- A message is given up only after all the clusters were tried. -/
  givenUp : ∀ before ev later id, c.state.log = before ++ ev :: later → about ev = some id → givesUp ev = true →
    ∀ all ∈ routes (concerning about id before), attempts (concerning about id before) = numbered 0 all
  /-- The outcome is the last that is published about a message. -/
  last : ∀ before ev later id, c.state.log = before ++ ev :: later → about ev = some id → isOutcome ev = true →
    concerning about id later = []

/-- **Every message lives its life on the bus**, as long as the ids have not gone round and nobody else publishes about
    messages. -/
theorem lives_run [Storage S] (storage : S) (concurrency : Nat) (labels : List Label) (c : Config S)
    (hrun : run (step concurrency) (boot storage) labels = some c) (hlabels : ∀ label ∈ labels, label.Apart)
    (hcounter : c.state.Unwrapped) : Lives c := by
  obtain ⟨γ, hγ⟩ := upholds_orderly.run rfl (orderly_boot storage) hlabels hrun hcounter
  have hfollowed := hγ.inv.followed
  have htold : ∀ id, ∃ stage, run Stage.step .unknown (concerning about id c.state.log) = some stage :=
    hfollowed.isSome
  refine ⟨fun id => ?_, fun id all hall => ?_, fun before ev later id hlog habout hev all hall => ?_,
    fun before ev later id hlog habout hev => ?_⟩
  · obtain ⟨stage, hstage⟩ := htold id
    refine ⟨stage, hstage, fun hquiet => ?_⟩
    have hempty : ∀ i, place c.state γ i = none := by
      intro i
      cases i with
      | bus p n =>
        show (if c.state.seen p ≤ n then c.state.log[n]?.bind p.charge else none) = none
        split
        · rename_i hn
          rw [hquiet.read p] at hn
          rw [List.getElem?_eq_none hn, Option.bind_none]
        · rfl
      | permit => exact congrArg (Option.map Job.charge) hquiet.held
      | body t => exact hγ.done_of_idle (by rw [hquiet.idle t]; rfl)
    obtain ⟨stage', hstage', hend⟩ := hfollowed.ended hempty id
    obtain rfl : stage = stage' := Option.some.inj (hstage.symm.trans hstage')
    exact hend
  · obtain ⟨stage, hstage⟩ := htold id
    exact (tried_run hstage).inTurn hall
  · obtain ⟨stage, hstage⟩ := htold id
    obtain ⟨s₁, s₂, hbefore, hstep, -⟩ := run_concerning_split habout (hlog ▸ hstage)
    exact step_givesUp (tried_run hbefore) hev hstep hall
  · obtain ⟨stage, hstage⟩ := htold id
    obtain ⟨s₁, s₂, -, hstep, hlater⟩ := run_concerning_split habout (hlog ▸ hstage)
    obtain rfl := step_outcome hev hstep
    exact run_ended hlater

/-- Surroundings in which every message has a route, to two clusters that are not there. -/
def lostEnv : Env :=
  ⟨⟨⟨0, 0⟩, .listed⟩, some ⟨"route", "first", ["second"]⟩, none, false, .timeout, false, false⟩

/-- A message that no cluster takes. -/
def lost : List Label :=
  sampleSubmit "+258841234567" "+258821234567" :: reads .filter 1 ++ calls .filter 1 ++ reads .router 2 ++
    List.replicate 4 (.advance .router lostEnv) ++ reads .forwarder 3 ++ [.spawn] ++
    List.replicate 10 (.advance (.forward 0) lostEnv)

theorem lives_lost :
    ∃ c, run (step 1) (boot (MemoryStorage.withConfig ⟨1000, 512, 10⟩)) lost = some c ∧ Lives c ∧
      attempts c.state.log = [("first", 1), ("second", 2)] :=
  ⟨_, rfl, lives_run (MemoryStorage.withConfig ⟨1000, 512, 10⟩) 1 lost _ rfl (by decide)
    (Nat.le_of_ble_eq_true rfl), rfl⟩

end Smppd.Pipeline
