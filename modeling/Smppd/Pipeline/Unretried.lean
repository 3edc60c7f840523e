/-
  RETRIES in the pipeline, which there are none of.

  When all clusters have failed, `forward_message` looks for the record of the message, to see whether it may be
  retried.  It looks under the id of the envelope, and the record is under another (see `Identity`).  So it finds
  nothing, and the message fails for good: the branch that schedules a retry is never taken.  For the same reason no
  update reaches a record, and whatever becomes of the messages, every record stays as it was stored.
-/
import Smppd.Pipeline.Identity
import Smppd.Pipeline.Lifecycle

set_option linter.unusedVariables false

namespace Smppd.Pipeline

open Smppd.Store Smppd.Gateway Smppd.Bootstrap Prog Machine

/-! ## Records as they were stored -/

/-- Nothing has been done with the message. -/
structure Untouched (m : StoredMessage) : Prop where
  state : m.state = .pending
  attempts : m.attempts = 0
  smscMessageId : m.smscMessageId = none

/-- What is read back of a record, and that an update of a record that is not there does nothing. -/
class PlainStorage (S : Type) [Storage S] extends LawfulStorage S where
  get_store : ∀ env m (s : S) env' id m', Storage.get env' id (Storage.store env m s) = some m' →
    (m'.state = m.state ∧ m'.attempts = m.attempts ∧ m'.smscMessageId = m.smscMessageId) ∨
      Storage.get env' id s = some m'
  get_update : ∀ env id f (s : S) env' id', Absent s id →
    Storage.get env' id' (Storage.update env id f s).1 = Storage.get env' id' s

instance : PlainStorage MemoryStorage where
  get_store := by
    intro env m s env' id m' hget
    change (s.store env.order m).get id = some m' at hget
    rw [MemoryStorage.get_store] at hget
    split at hget
    · obtain rfl := Option.some.inj hget
      exact .inl ⟨rfl, rfl, rfl⟩
    · exact .inr (Option.ite_none_left_eq_some.mp hget).2
  get_update := by
    intro env id f s env' id' habsent
    show (s.update id f).1.get id' = s.get id'
    rw [MemoryStorage.get_update]
    split
    · rename_i hid
      have hnone : s.get id' = none := hid ▸ habsent env'
      rw [hnone]
      rfl
    · rfl

instance : PlainStorage PersistentStorage where
  get_store := by
    intro env m s env' id m' hget
    obtain ⟨p, hp, rfl⟩ := Option.map_eq_some_iff.mp hget
    rcases PersistentStorage.lookup_persist_eq_some.mp hp with ⟨-, rfl⟩ | ⟨-, hold⟩
    · exact .inl ⟨MessageState.ofCode_code m.state, rfl, rfl⟩
    · exact .inr (Option.map_eq_some_iff.mpr ⟨p, hold, rfl⟩)
  get_update := by
    intro env id f s env' id' habsent
    have hnone : s.loadMessage env.clock id = none := habsent env
    show (s.update env.clock id f).1.get env'.clock id' = s.get env'.clock id'
    rw [PersistentStorage.update, hnone]

/-! ## What the bodies do, where no record is found -/

/-- The envelope of the message that a body works on. -/
def Work.owes (g : Work) (id : MessageId) : Prop := ∃ e, g.owed = some e ∧ id = e.messageId

/-- A body that schedules no retry, if it finds no record of its own message. -/
def strands : Spec (Op Event) Op.Res Work
  | .emit (.messageRetryScheduled ..), _, _ => False
  | .newMessage source destination shortMessage systemId sequenceNumber, post, g =>
    keeps (.newMessage source destination shortMessage systemId sequenceNumber)
      (fun m g => Untouched m → post m g) g
  | .store m, post, g => Untouched m ∧ keeps (.store m) post g
  | .get id, post, g => g.owes id ∧ post none g
  | .update id f, post, g => g.owes id ∧ keeps (.update id f) post g
  | op, post, g => keeps op post g

/-- A body that has nothing left in hand. -/
def stranded (g : Work) : Prop := g = .nothing

theorem strands_rejectMessage (e : MessageEnvelope) (reason : String) (status : UInt32) :
    (FilterProcessor.rejectMessage e reason status).wp strands (fun _ => stranded) (.given e) := by
  intro _
  exact ⟨e, rfl, ⟨rfl, rfl⟩, rfl⟩

theorem strands_processMessage (e : MessageEnvelope) :
    (FilterProcessor.processMessage e).wp strands (fun _ => stranded) (.given e) := by
  unfold FilterProcessor.processMessage
  split
  · exact strands_rejectMessage e _ _
  · split
    · exact strands_rejectMessage e _ _
    · exact ⟨rfl, rfl⟩

theorem strands_routeMessage (e : MessageEnvelope) :
    (RouterProcessor.routeMessage e).wp strands (fun _ => stranded) (.given e) := by
  unfold RouterProcessor.routeMessage
  refine ⟨rfl, fun stored huntouched => ⟨?_, rfl, fun route => ?_⟩⟩
  · exact ⟨huntouched.state, huntouched.attempts, huntouched.smscMessageId⟩
  · cases route with
    | some result => exact ⟨rfl, rfl⟩
    | none => exact ⟨⟨e, rfl, rfl⟩, fun _ _ => rfl, fun updated _ => ⟨e, rfl, ⟨rfl, rfl⟩, rfl⟩⟩

theorem strands_tryForwardToCluster (name : String) (e : MessageEnvelope)
    {post : Except ForwarderProcessor.AttemptError String → Work → Prop} {g : Work} (hpost : ∀ r, post r g) :
    (ForwarderProcessor.tryForwardToCluster name e).wp strands post g := by
  unfold ForwarderProcessor.tryForwardToCluster
  intro cluster
  rcases cluster with _ | mock
  · exact hpost _
  · cases mock with
    | true => exact hpost _
    | false =>
      intro connection
      cases connection with
      | false => exact hpost _
      | true =>
        intro reply
        cases reply with
        | submitSmResp status messageId =>
          show Prog.wp _ (if status = 0 then _ else _) post _
          split
          · exact hpost _
          · exact hpost _
        | _ => exact hpost _

theorem strands_tryClusters (e : MessageEnvelope) (names : List String) (attempt : Nat)
    (last : Option UInt32 × Option String)
    {post : Except (Option UInt32 × Option String) (String × String) → Work → Prop} {g : Work}
    (hpost : ∀ r, post r g) : (ForwarderProcessor.tryClusters e names attempt last).wp strands post g := by
  induction names generalizing attempt last with
  | nil => exact hpost _
  | cons name rest ih =>
    unfold ForwarderProcessor.tryClusters
    rw [wp_bind]
    intro _
    rw [wp_ret, wp_bind]
    refine strands_tryForwardToCluster name e fun r => ?_
    cases r with
    | ok smscMessageId => exact hpost _
    | error err => exact ih _ _

/-- **A forward task** that finds no record gives the message up. -/
theorem strands_forwardMessage (e : MessageEnvelope) (name : String) (fallback : List String) :
    (ForwarderProcessor.forwardMessage e name fallback).wp strands (fun _ => stranded) (.given e) := by
  unfold ForwarderProcessor.forwardMessage
  intro start
  show Prog.wp _ (ForwarderProcessor.tryClusters e _ _ _ >>= _) _ _
  rw [wp_bind]
  refine strands_tryClusters e _ _ _ fun r => ?_
  cases r with
  | ok reached =>
    intro clock
    exact ⟨⟨e, rfl, rfl⟩, fun _ _ => rfl, fun updated _ => ⟨e, rfl, ⟨rfl, rfl⟩, rfl⟩⟩
  | error last =>
    refine ⟨⟨e, rfl, rfl⟩, fun clock => ?_⟩
    exact ⟨⟨e, rfl, rfl⟩, fun _ _ => rfl, fun updated _ => ⟨e, rfl, ⟨rfl, rfl⟩, rfl⟩⟩

/-! ## Every step keeps it so -/

section Steps

variable {S : Type} [Storage S] [PlainStorage S]

/-- No retry was scheduled. -/
def NoRetry (log : List Event) : Prop := ∀ id attempt delay reason, .messageRetryScheduled id attempt delay reason ∉ log

/-- The ids are apart, no retry was scheduled, and nothing was done with any record. -/
structure Stranded (s : Shared S) (γ : Tid → Work) : Prop where
  apart : Apart s γ
  untouched : ∀ env id m, Storage.get env id s.world.storage = some m → Untouched m
  noRetry : NoRetry s.log

variable {s : Shared S} {γ : Tid → Work}

theorem NoRetry.append {log : List Event} (h : NoRetry log) {ev : Event}
    (hev : ∀ id attempt delay reason, ev ≠ .messageRetryScheduled id attempt delay reason) : NoRetry (log ++ [ev]) := by
  intro id attempt delay reason hmem
  rcases List.mem_append.mp hmem with hmem | hmem
  · exact h id attempt delay reason hmem
  · exact hev id attempt delay reason (List.mem_singleton.mp hmem).symm

/-- A body finds no record of its own message. -/
theorem Stranded.absent (h : Stranded s γ) {t : Tid} {id : MessageId} (howes : (γ t).owes id) :
    Absent s.world.storage id := by
  obtain ⟨e, he, rfl⟩ := howes
  exact (h.apart.foreign e (.owed he)).absent

/-- **One call of a body.** -/
theorem call_stranded (h : Stranded s γ) (t : Tid) (env : Env) (op : Op Event) (post : op.Res → Work → Prop)
    (hfresh : (call env op s).2.Unwrapped) (hpre : strands op post (γ t)) :
    ∃ g', post (call env op s).1 g' ∧ Stranded (call env op s).2 (Function.update γ t g') := by
  have hapart : s.world.counter ≤ 2 ^ 64 → Apart s γ := fun _ => h.apart
  cases op with
  | emit ev =>
    by_cases hretry : ∃ id attempt delay reason, ev = .messageRetryScheduled id attempt delay reason
    · obtain ⟨id, attempt, delay, reason, rfl⟩ := hretry
      exact hpre.elim
    · have hkeeps : keeps (.emit ev) post (γ t) := by
        cases ev <;> first | exact hpre | exact absurd ⟨_, _, _, _, rfl⟩ hretry
      obtain ⟨g', hpost, hnext⟩ := call_apart t env _ post hkeeps hapart
      refine ⟨g', hpost, hnext hfresh, h.untouched, h.noRetry.append fun id attempt delay reason heq => ?_⟩
      exact hretry ⟨id, attempt, delay, reason, heq⟩
  | newMessage source destination shortMessage systemId sequenceNumber =>
    have hkeeps : keeps (.newMessage source destination shortMessage systemId sequenceNumber)
        (fun m g => Untouched m → post m g) (γ t) := hpre
    obtain ⟨g', hpost, hnext⟩ := call_apart t env _ _ hkeeps hapart
    exact ⟨g', hpost ⟨rfl, rfl, rfl⟩, hnext hfresh, h.untouched, h.noRetry⟩
  | store m =>
    obtain ⟨g', hpost, hnext⟩ := call_apart t env _ _ hpre.2 hapart
    refine ⟨g', hpost, hnext hfresh, fun env' id m' hget => ?_, h.noRetry⟩
    rcases PlainStorage.get_store _ _ _ _ _ _ hget with ⟨hstate, hattempts, hsmsc⟩ | hold
    · exact ⟨hstate.trans hpre.1.state, hattempts.trans hpre.1.attempts, hsmsc.trans hpre.1.smscMessageId⟩
    · exact h.untouched env' id m' hold
  | get id =>
    have hnone : (call env (.get id) s).1 = none := h.absent hpre.1 env.store
    rw [hnone]
    refine ⟨γ t, hpre.2, ?_⟩
    rw [Function.update_eq_self]
    exact h
  | update id f =>
    obtain ⟨g', hpost, hnext⟩ := call_apart t env _ _ hpre.2 hapart
    refine ⟨g', hpost, hnext hfresh, fun env' id' m' hget => ?_, h.noRetry⟩
    change Storage.get env' id' (Storage.update env.store id (f env.store.clock) s.world.storage).1 = some m' at hget
    rw [PlainStorage.get_update _ _ _ _ _ _ (h.absent hpre.1)] at hget
    exact h.untouched env' id' m' hget
  | tryEmit ev => exact False.elim hpre
  | _ => exact ⟨γ t, hpre _, (Function.update_eq_self t γ).symm ▸ h⟩

theorem upholds_stranded : Upholds strands stranded (Stranded (S := S)) where
  submit s γ clock sessionId sequenceNumber systemId submitSm hfresh h :=
    ⟨preserved_apart.submit _ _ clock sessionId sequenceNumber systemId submitSm (fun _ => h.apart) hfresh, h.untouched,
      h.noRetry.append (fun _ _ _ _ => nofun)⟩
  other s γ ev hflows habout hfresh h := by
    refine ⟨preserved_apart.other _ _ ev hflows (fun _ => h.apart) hfresh, h.untouched, h.noRetry.append ?_⟩
    rintro id attempt delay reason rfl
    cases habout
  skip s γ p ev hev htakes hfresh h :=
    ⟨preserved_apart.skip _ _ p ev hev htakes (fun _ => h.apart) hfresh, h.untouched, h.noRetry⟩
  filter s γ e hev hfree hfresh h :=
    ⟨_, strands_processMessage e,
      preserved_apart.take _ _ .filter _ e .filter hev rfl (.inl rfl) hfree (fun _ => h.apart) hfresh, h.untouched,
      h.noRetry⟩
  router s γ e hev hfree hfresh h :=
    ⟨_, strands_routeMessage e,
      preserved_apart.take _ _ .router _ e .router hev rfl (.inr rfl) hfree (fun _ => h.apart) hfresh, h.untouched,
      h.noRetry⟩
  hold s γ e routeName cluster fallback hnone hev hfresh h :=
    ⟨preserved_apart.hold _ _ _ ⟨e, cluster, fallback⟩ hnone hev rfl (fun _ => h.apart) hfresh, h.untouched, h.noRetry⟩
  spawn s γ job hjob hfresh h :=
    ⟨_, strands_forwardMessage job.envelope job.clusterName job.fallbackClusters,
      preserved_apart.spawn _ _ job hjob (fun _ => h.apart) hfresh, h.untouched, h.noRetry⟩
  call s γ t env op post hfresh hpre h := call_stranded h t env op post hfresh hpre
  finish s γ t e hjob hfresh h :=
    ⟨preserved_apart.finish _ _ t e hjob (fun _ => h.apart) hfresh, h.untouched, h.noRetry⟩

end Steps

/-- What the pipeline leaves of the messages that it has taken. -/
structure LeftAlone {S : Type} [Storage S] (c : Config S) : Prop where
  /-- Nobody is told that a message will be retried. -/
  noRetry : NoRetry c.state.log
  /-- The records say that nothing has been done with the messages. -/
  untouched : ∀ env id m, Storage.get env id c.state.world.storage = some m → Untouched m

/-- **No message is ever retried**, and no record is ever updated. -/
theorem leftAlone_run {S : Type} [Storage S] [PlainStorage S] (storage : S) (hnew : LawfulStorage.created storage)
    (concurrency : Nat) (labels : List Label) (c : Config S)
    (hrun : run (step concurrency) (boot storage) labels = some c) (hlabels : ∀ label ∈ labels, label.Apart)
    (hcounter : c.state.Unwrapped) : LeftAlone c := by
  have hboot : Stranded (boot storage).state fun _ => .nothing := by
    refine ⟨apart_boot hnew, fun env id m hget => ?_, fun _ _ _ _ => List.not_mem_nil⟩
    exact nomatch (LawfulStorage.absent_created storage id hnew env).symm.trans hget
  obtain ⟨γ, hγ⟩ := upholds_stranded.run rfl hboot hlabels hrun hcounter
  exact ⟨hγ.inv.noRetry, hγ.inv.untouched⟩

/-- A message that no cluster takes: it is not retried, and its record waits to be sent. -/
theorem leftAlone_lost :
    ∃ c, run (step 1) (boot (MemoryStorage.withConfig ⟨1000, 512, 10⟩)) lost = some c ∧ LeftAlone c ∧
      ∃ id m, c.state.world.storage.get id = some m ∧ m.destination = "+258821234567" := by
  have hnew : LawfulStorage.created (MemoryStorage.withConfig ⟨1000, 512, 10⟩) := ⟨_, rfl⟩
  refine ⟨_, rfl, ?_, ⟨1⟩, _, rfl, rfl⟩
  exact leftAlone_run (MemoryStorage.withConfig ⟨1000, 512, 10⟩) hnew 1 lost _ rfl (by decide)
    (Nat.le_of_ble_eq_true rfl)

end Smppd.Pipeline
