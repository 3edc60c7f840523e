/-
  A receipt RACING with the request it is for.

  The upstream may send the receipt of a message at any time after it has accepted it, and
  `process_request` writes the upstream id into the store only after it has read the reply.  Here one
  request task and the receipt task run against each other over any storage.

  The receipt task decides everything at its first query: if the id is in the store by then, it finds
  the message and settles it; if not, it finds nothing, and the request task marks the message
  `InFlight` for good (`Race.settled_iff`).  Together with what the bounded scan can miss
  (`Correlation`) this says exactly when receipts are applied.
-/
import Smppd.Lib.Machine
import Smppd.Forwarder.Correlation
import Smppd.Forwarder.Ownership

set_option linter.unusedVariables false

namespace Smppd.Forwarder

open Smppd.Store Smppd.Gateway Prog Machine Table

variable {D S : Type} [Storage S]

/-! ## The two tasks -/

/-- The two tasks. -/
inductive Actor where
  | request
  | receipt
  deriving DecidableEq

/-- The shared state and what is left of the two tasks. -/
abbrev Race (S D : Type) := Pool (Op (Output D)) Op.Res Actor (World S (Output D))

namespace Race

/-- One call of one of the two. -/
def step (c : Race S D) (a : Actor × Env) : Option (Race S D) := c.advance handle a.1 a.2

/-- Both tasks about to make their first call. -/
def start (w : World S (Output D)) (request : ForwardRequest) (codec : DlrCodec D)
    (event : DlrEvent D) : Race S D :=
  ⟨w, fun
    | .request => processRequest request
    | .receipt => processDlr codec event⟩

/-- Both tasks have returned. -/
def Finished (c : Race S D) : Prop := ∀ a, c.task a = .ret ()

/-! ## Where the receipt task stands -/

/-- The receipt task before its first query, after a query that found nothing, with the message found
    and not settled yet, with the message settled. -/
inductive Stage where
  | waiting
  | missed
  | found
  | settled
  deriving DecidableEq

/-- What each call of the receipt task does to its stage, for the message `id` and the receipt. -/
def receiptSpec (id : MessageId) (dlr : DeliveryReceipt) : Spec (Op (Output D)) Op.Res Stage
  | .query q, post, g =>
    (g = .waiting ∧ q = .byState .inFlight 1000 ∧ ∀ r : List StoredMessage,
      (r.find? (carries dlr.smscMessageId) = none → post r .missed) ∧
      ∀ m, r.find? (carries dlr.smscMessageId) = some m → m.id = id → post r .found) ∨
    (g = .missed ∧ q = .byState .retrying 1000 ∧ ∀ r : List StoredMessage,
      r.find? (carries dlr.smscMessageId) = none → post r .missed)
  | .update id' f, post, g => g = .found ∧ id' = id ∧ f = settle dlr ∧ ∀ b, post b .settled
  | .session _, post, g => g = .settled ∧ ∀ r, post r .settled
  | .tryEmit _, post, g => g = .settled ∧ ∀ r, post r .settled
  | _, _, _ => False

/-- The receipt task ends having missed the message, or having settled it. -/
def Stage.Over (g : Stage) : Prop := g = .missed ∨ g = .settled

theorem wp_receipt {codec : DlrCodec D} {event : DlrEvent D} {dlr : DeliveryReceipt}
    (hparse : codec.parseDlr event.deliverSm = some dlr) (hfin : dlr.status.isFinal = true)
    (id : MessageId) :
    (processDlr codec event).wp (receiptSpec id dlr) (fun _ g => g.Over) .waiting := by
  have hforward : ∀ systemId deliver, (forwardToClient systemId deliver : Body (Output D) Unit).wp
      (receiptSpec id dlr) (fun _ g => g.Over) .settled := by
    intro systemId deliver
    unfold forwardToClient
    simp only [request_bind]
    refine ⟨rfl, fun session => ?_⟩
    cases session with
    | false => exact Or.inr rfl
    | true => exact ⟨rfl, fun _ => Or.inr rfl⟩
  unfold processDlr
  rw [hparse]
  simp only [wp_bind]
  unfold findMessageBySmscId
  simp only [request_bind]
  refine Or.inl ⟨rfl, rfl, fun inFlight => ⟨fun hnone => ?_, fun m hfind hid => ?_⟩⟩
  · beta_reduce
    rw [hnone]
    refine Or.inr ⟨rfl, rfl, fun retrying hnone' => ?_⟩
    simp only [hnone', pure_eq, wp_ret]
    exact Or.inl rfl
  · simp only [hfind, pure_eq, wp_ret, hfin, if_true]
    exact ⟨rfl, hid, rfl, fun _ => hforward _ _⟩

/-! ## The invariant -/

/-- The holdings of the request task, the stage of the receipt task. -/
abbrev Ghost : Actor → Type
  | .request => Hold
  | .receipt => Stage

/-- What the message looks like once the request task is done with it. -/
def After (dlr : DeliveryReceipt) (v : Summary) : Stage → Prop
  | .waiting | .missed => v.smscMessageId = some dlr.smscMessageId → v.state = .inFlight
  | .found => v.smscMessageId = some dlr.smscMessageId ∧ v.state = .inFlight
  | .settled => v.smscMessageId = some dlr.smscMessageId ∧ v.state = dlr.status.outcome

/-- What the message `id` looks like, from the holdings of the request task and the stage of the
    receipt task; `n` is the counter before the request. -/
def View (n : Nat) (id : MessageId) (dlr : DeliveryReceipt) (w : World S (Output D)) :
    Hold → Stage → Prop
  | .nothing, g => w.counter = n ∧ look id w.storage = none ∧ (g = .waiting ∨ g = .missed)
  | .drawn id', g => id' = id ∧ look id w.storage = none ∧ (g = .waiting ∨ g = .missed)
  | .owns id', g => id' = id ∧ (g = .waiting ∨ g = .missed) ∧
      ∃ v, look id w.storage = some v ∧ v.state = .pending ∧ v.smscMessageId = none
  | .closed, g => ∃ v, look id w.storage = some v ∧ After dlr v g

variable [QueryStorage S]

/-- The invariant of the race. -/
structure Inv (n : Nat) (dlr : DeliveryReceipt) (w : World S (Output D))
    (γ : (a : Actor) → Ghost a) : Prop where
  good : QueryStorage.Good w.storage
  /-- No other message carries the receipt's id. -/
  others : ∀ id' v, id' ≠ (MessageId.new n).1 → look id' w.storage = some v →
    v.smscMessageId ≠ some dlr.smscMessageId
  view : View n (MessageId.new n).1 dlr w (γ .request) (γ .receipt)

/-- The message's record has the upstream id the receipt is for. -/
def Recorded (n : Nat) (dlr : DeliveryReceipt) (w : World S (Output D)) : Prop :=
  ∃ v, look (MessageId.new n).1 w.storage = some v ∧ v.smscMessageId = some dlr.smscMessageId

section Soundness

variable {n : Nat} {dlr : DeliveryReceipt} {w : World S (Output D)} {γ : (a : Actor) → Ghost a}

/-- Replacing what the request task holds. -/
theorem Inv.setRequest {w' : World S (Output D)} (g : Hold) (hgood : QueryStorage.Good w'.storage)
    (hothers : ∀ id' v, id' ≠ (MessageId.new n).1 → look id' w'.storage = some v →
      v.smscMessageId ≠ some dlr.smscMessageId)
    (hview : View n (MessageId.new n).1 dlr w' g (γ .receipt)) :
    Inv n dlr w' (Function.update γ .request g) := by
  refine ⟨hgood, hothers, ?_⟩
  rw [Function.update_self, Function.update_of_ne (by decide)]
  exact hview

/-- Replacing the stage of the receipt task. -/
theorem Inv.setReceipt {w' : World S (Output D)} (g : Stage) (hgood : QueryStorage.Good w'.storage)
    (hothers : ∀ id' v, id' ≠ (MessageId.new n).1 → look id' w'.storage = some v →
      v.smscMessageId ≠ some dlr.smscMessageId)
    (hview : View n (MessageId.new n).1 dlr w' (γ .request) g) :
    Inv n dlr w' (Function.update γ .receipt g) := by
  refine ⟨hgood, hothers, ?_⟩
  rw [Function.update_self, Function.update_of_ne (by decide)]
  exact hview

/-- What has been sent out plays no part. -/
theorem Inv.sent (h : Inv n dlr w γ) (sent : List (Output D)) : Inv n dlr { w with sent := sent } γ := by
  refine ⟨h.good, h.others, ?_⟩
  have hview := h.view
  cases hg : γ .request <;> rw [hg] at hview <;> exact hview

/-- An update of the message leaves the others as they are. -/
theorem Inv.others_update (h : Inv n dlr w γ) (env : StoreEnv)
    {f : StoredMessage → StoredMessage} (hf : ∀ m, (f m).id = m.id) :
    ∀ id' v, id' ≠ (MessageId.new n).1 →
      look id' (Storage.update env (MessageId.new n).1 f w.storage).1 = some v →
      v.smscMessageId ≠ some dlr.smscMessageId := by
  intro id' v hne hv
  rw [QueryStorage.look_update env _ f w.storage id' hf h.good, if_neg hne] at hv
  exact h.others id' v hne hv

/-- An update of the message, from what it is to what it becomes. -/
theorem look_updated (hgood : QueryStorage.Good w.storage) {id : MessageId} {v : Summary}
    (hlook : look id w.storage = some v) (env : StoreEnv)
    {f : StoredMessage → StoredMessage} (hf : ∀ m, (f m).id = m.id) :
    ∃ m : StoredMessage, m.summary = v ∧
      look id (Storage.update env id f w.storage).1 = some (f m).summary := by
  rw [← QueryStorage.look_get env] at hlook
  obtain ⟨m, hget, hm⟩ := Option.map_eq_some_iff.mp hlook
  refine ⟨m, hm, ?_⟩
  rw [QueryStorage.look_update env id f w.storage id hf hgood, if_pos rfl, hget]
  rfl

/-- **One call of the request task.** -/
theorem request_sound (h : Inv n dlr w γ) (env : Env) (op : Op (Output D))
    (post : op.Res → Hold → Prop) (hpre : ownSpec .request op post (γ .request)) :
    ∃ g', post (handle env op w).1 g' ∧
      Inv n dlr (handle env op w).2 (Function.update γ .request g') := by
  have hsame : Function.update γ .request (γ .request) = γ := Function.update_eq_self _ γ
  have hview := h.view
  cases op with
  | newMessage src dst payload sys seq =>
    obtain ⟨-, hg, hpost⟩ := hpre
    rw [hg] at hview
    obtain ⟨hn, hfree, hstage⟩ := hview
    refine ⟨_, hpost _ rfl rfl, Inv.setRequest _ h.good h.others ⟨?_, hfree, hstage⟩⟩
    show (MessageId.new w.counter).1 = _
    rw [hn]
  | store m =>
    obtain ⟨-, hg, hst, hsmsc, hpost⟩ := hpre
    rw [hg] at hview
    obtain ⟨hid, hfree, hstage⟩ := hview
    have hself := QueryStorage.look_store_self env.store m w.storage
    rw [← hid] at hfree
    refine ⟨_, hpost, Inv.setRequest _ (QueryStorage.good_store env.store m _ h.good hfree) ?_
      ⟨hid, hstage, m.summary, ?_, hst, hsmsc⟩⟩
    · intro id' v hne hv
      rw [← hid] at hne
      rcases QueryStorage.look_store_ne env.store m w.storage id' hne with hlook | hlook
      · exact h.others id' v (by rw [← hid]; exact hne) (hlook.symm.trans hv)
      · exact nomatch hlook.symm.trans hv
    · rw [← hid]
      exact hself
  | get id =>
    rcases hpre with ⟨-, hpost⟩ | ⟨hg, hpost⟩
    · exact ⟨γ .request, hpost _, by rw [hsame]; exact h⟩
    · rcases hpost (Storage.get env.store id w.storage) with hpost | ⟨hrole, -⟩
      · refine ⟨.nothing, hpost, ?_⟩
        rw [← hg, hsame]
        exact h
      · cases hrole
  | query q => exact nomatch hpre.1
  | update id f =>
    obtain ⟨hg, hf⟩ := hpre
    rw [hg] at hview
    obtain ⟨rfl, hstage, v, hlook, hst, hsmsc⟩ := hview
    have hfid : ∀ m, (f env.store.clock m).id = m.id := by
      rcases hf with ⟨hann, -⟩ | ⟨htrans, -⟩
      · exact hann.id _
      · exact htrans.id _
    obtain ⟨m, rfl, hlook'⟩ := look_updated h.good hlook env.store hfid
    have hgood := QueryStorage.good_update env.store (MessageId.new n).1 _ _ hfid h.good
    have hothers := h.others_update env.store hfid
    rcases hf with ⟨hann, hpost⟩ | ⟨htrans, hpost⟩
    · refine ⟨_, hpost _, Inv.setRequest _ hgood hothers ⟨rfl, hstage, _, hlook', ?_, ?_⟩⟩
      · exact (hann.state _ m).trans hst
      · exact (hann.smsc _ m).trans hsmsc
    · refine ⟨_, hpost _, Inv.setRequest _ hgood hothers ⟨_, hlook', ?_⟩⟩
      -- the only transition that records an upstream id is the one to `InFlight`
      have hafter : (f env.store.clock m).smscMessageId = some dlr.smscMessageId →
          (f env.store.clock m).state = .inFlight := by
        intro hx
        rcases htrans.smsc env.store.clock m with hkeep | hstate
        · rw [hkeep] at hx
          exact nomatch hx.symm.trans hsmsc
        · exact hstate
      rcases hstage with hw | hm <;> simp only [*] <;> exact hafter
  | emit o => exact ⟨γ .request, hpre _, by rw [hsame]; exact h.sent _⟩
  | tryEmit o => exact ⟨γ .request, hpre _, by rw [hsame]; exact h.sent _⟩
  | _ => exact ⟨γ .request, hpre _, by rw [hsame]; exact h⟩

/-- Only the request's message can carry the receipt's id, and only once the request task is done
    with it. -/
theorem Inv.closed_of_recorded (h : Inv n dlr w γ) (hrec : Recorded n dlr w) :
    γ .request = .closed := by
  obtain ⟨v, hlook, hsmsc⟩ := hrec
  have hview := h.view
  cases hg : γ .request with
  | closed => rfl
  | nothing =>
    rw [hg] at hview
    exact nomatch hview.2.1.symm.trans hlook
  | drawn id =>
    rw [hg] at hview
    exact nomatch hview.2.1.symm.trans hlook
  | owns id =>
    rw [hg] at hview
    obtain ⟨-, -, v', hlook', -, hnone⟩ := hview
    obtain rfl := Option.some.inj (hlook.symm.trans hlook')
    exact nomatch hnone.symm.trans hsmsc

/-- The receipt task can find the message only once the request task is done with it. -/
theorem Inv.closed_of_found (h : Inv n dlr w γ)
    (hg : γ .receipt = .found ∨ γ .receipt = .settled) : γ .request = .closed := by
  have hview := h.view
  have hnot : ¬ (γ .receipt = .waiting ∨ γ .receipt = .missed) := by
    rcases hg with hg | hg <;> rw [hg] <;> decide
  cases hr : γ .request with
  | closed => rfl
  | nothing => rw [hr] at hview; exact absurd hview.2.2 hnot
  | drawn id => rw [hr] at hview; exact absurd hview.2.2 hnot
  | owns id => rw [hr] at hview; exact absurd hview.2.1 hnot

/-- A carrier that a scan returns is the request's message. -/
theorem Inv.scanned (h : Inv n dlr w γ) {env : StoreEnv} {state : MessageState} {m : StoredMessage}
    (hscan : scan dlr.smscMessageId env state w.storage = some m) :
    m.id = (MessageId.new n).1 ∧ look (MessageId.new n).1 w.storage = some m.summary ∧
      m.smscMessageId = some dlr.smscMessageId ∧ m.state = state := by
  obtain ⟨hlook, hsmsc, hst⟩ := scan_sound h.good hscan
  have hid : m.id = (MessageId.new n).1 := by
    by_contra hne
    exact h.others m.id m.summary hne hlook hsmsc
  rw [hid] at hlook
  exact ⟨hid, hlook, hsmsc, hst⟩

/-- Where the stage of the receipt task goes; `recorded` is what its first query meets. -/
def Moves (recorded : Prop) : Stage → Stage → Prop
  | .waiting, g' => (recorded ∧ g' = .found) ∨ (¬ recorded ∧ g' = .missed)
  | .missed, g' => g' = .missed
  | .found, g' | .settled, g' => g' = .settled

/-- **The first query of the receipt task** finds the message exactly when its upstream id has been
    recorded. -/
theorem Inv.first_query (h : Inv n dlr w γ) (hg : γ .receipt = .waiting) (env : StoreEnv)
    (htally : QueryStorage.tally .inFlight w.storage ≤ 1000) :
    scan dlr.smscMessageId env .inFlight w.storage ≠ none ↔ Recorded n dlr w := by
  constructor
  · intro hne
    obtain ⟨m, hscan⟩ := Option.ne_none_iff_exists'.mp hne
    obtain ⟨-, hlook, hsmsc, -⟩ := h.scanned hscan
    exact ⟨m.summary, hlook, hsmsc⟩
  · intro hrec hnone
    have hview := h.view
    rw [h.closed_of_recorded hrec, hg] at hview
    obtain ⟨v, hlook, hsmsc⟩ := hrec
    obtain ⟨v', hlook', hafter⟩ := hview
    obtain rfl := Option.some.inj (hlook.symm.trans hlook')
    -- it is `InFlight`, so the query returns it
    obtain ⟨m, hm, hid⟩ := QueryStorage.query_complete env .inFlight 1000 w.storage _ v h.good hlook
      (hafter hsmsc) htally
    obtain ⟨hget, -⟩ := QueryStorage.query_sound env .inFlight 1000 w.storage m h.good hm
    rw [hid] at hget
    rw [← QueryStorage.look_get env, hget] at hlook
    obtain rfl := Option.some.inj hlook
    exact List.find?_eq_none.mp hnone m hm (decide_eq_true hsmsc)

/-- **One call of the receipt task.** -/
theorem receipt_sound (hfin : dlr.status.isFinal = true) (h : Inv n dlr w γ) (env : Env)
    (htally : γ .receipt = .waiting → QueryStorage.tally .inFlight w.storage ≤ 1000)
    (op : Op (Output D)) (post : op.Res → Stage → Prop)
    (hpre : receiptSpec (MessageId.new n).1 dlr op post (γ .receipt)) :
    ∃ g', post (handle env op w).1 g' ∧
      Inv n dlr (handle env op w).2 (Function.update γ .receipt g') ∧
      Moves (Recorded n dlr w) (γ .receipt) g' := by
  have hview := h.view
  cases op with
  | query q =>
    rcases hpre with ⟨hg, rfl, hpost⟩ | ⟨hg, rfl, hpost⟩
    · have hfirst := h.first_query hg env.store (htally hg)
      rw [hg] at hview ⊢
      cases hscan : scan dlr.smscMessageId env.store .inFlight w.storage with
      | none =>
        have hnot : ¬ Recorded n dlr w := fun hrec => hfirst.mpr hrec hscan
        refine ⟨.missed, (hpost _).1 hscan, Inv.setReceipt _ h.good h.others ?_,
          Or.inr ⟨hnot, rfl⟩⟩
        cases hr : γ .request with
        | nothing => rw [hr] at hview; exact ⟨hview.1, hview.2.1, Or.inr rfl⟩
        | drawn id => rw [hr] at hview; exact ⟨hview.1, hview.2.1, Or.inr rfl⟩
        | owns id => rw [hr] at hview; exact ⟨hview.1, Or.inr rfl, hview.2.2⟩
        | closed => rw [hr] at hview; exact hview
      | some m =>
        obtain ⟨hid, hlook, hsmsc, hst⟩ := h.scanned hscan
        have hrec : Recorded n dlr w := ⟨m.summary, hlook, hsmsc⟩
        refine ⟨.found, (hpost _).2 m hscan hid, Inv.setReceipt _ h.good h.others ?_,
          Or.inl ⟨hrec, rfl⟩⟩
        rw [h.closed_of_recorded hrec]
        exact ⟨m.summary, hlook, hsmsc, hst⟩
    · rw [hg] at hview ⊢
      have hnone : scan dlr.smscMessageId env.store .retrying w.storage = none := by
        by_contra hne
        obtain ⟨m, hscan⟩ := Option.ne_none_iff_exists'.mp hne
        obtain ⟨-, hlook, hsmsc, hst⟩ := h.scanned hscan
        -- the message would be `Retrying` and carry an upstream id
        rw [h.closed_of_recorded ⟨m.summary, hlook, hsmsc⟩] at hview
        obtain ⟨v, hlook', hafter⟩ := hview
        obtain rfl := Option.some.inj (hlook.symm.trans hlook')
        exact nomatch (hafter hsmsc).symm.trans hst
      refine ⟨.missed, hpost _ hnone, ?_, rfl⟩
      rw [← hg, Function.update_eq_self]
      exact h
  | update id f =>
    obtain ⟨hg, rfl, rfl, hpost⟩ := hpre
    rw [hg] at hview ⊢
    have hr : γ .request = .closed := h.closed_of_found (Or.inl hg)
    rw [hr] at hview
    obtain ⟨v, hlook, hsmsc, -⟩ := hview
    have hfid := settle_id dlr env.store.clock
    obtain ⟨m, rfl, hlook'⟩ := look_updated h.good hlook env.store hfid
    refine ⟨.settled, hpost _, Inv.setReceipt _
      (QueryStorage.good_update env.store (MessageId.new n).1 _ _ hfid h.good)
      (h.others_update env.store hfid) ?_, rfl⟩
    rw [hr]
    refine ⟨_, hlook', ?_, ?_⟩
    · rw [summary_settle, settleSummary_smsc]
      exact hsmsc
    · rw [summary_settle]
      exact settleSummary_state hfin _
  | session systemId =>
    obtain ⟨hg, hpost⟩ := hpre
    refine ⟨.settled, hpost _, ?_, by rw [hg]; rfl⟩
    rw [← hg, Function.update_eq_self]
    exact h
  | tryEmit o =>
    obtain ⟨hg, hpost⟩ := hpre
    refine ⟨.settled, hpost _, ?_, by rw [hg]; rfl⟩
    rw [← hg, Function.update_eq_self]
    exact h.sent _
  | _ => exact False.elim hpre

end Soundness

/-! ## Runs -/

section Runs

variable {n : Nat} {dlr : DeliveryReceipt} {c c' : Race S D} {γ : (a : Actor) → Ghost a}

/-- What each task keeps to, for the message the request stores. -/
def spec (n : Nat) (dlr : DeliveryReceipt) : (a : Actor) → Spec (Op (Output D)) Op.Res (Ghost a)
  | .request => ownSpec .request
  | .receipt => receiptSpec (MessageId.new n).1 dlr

/-- What each task ends with. -/
def done : (a : Actor) → Ghost a → Prop
  | .request => Hold.Free
  | .receipt => Stage.Over

/-- The two tasks keep to their specifications, and the invariant holds. -/
abbrev Kept (n : Nat) (dlr : DeliveryReceipt) (c : Race S D) (γ : (a : Actor) → Ghost a) : Prop :=
  Pledged (spec n dlr) done (Inv n dlr) c γ

theorem kept_start {w : World S (Output D)} {request : ForwardRequest} {codec : DlrCodec D}
    {event : DlrEvent D} (hparse : codec.parseDlr event.deliverSm = some dlr)
    (hfin : dlr.status.isFinal = true) (hgood : QueryStorage.Good w.storage)
    (hfree : look (MessageId.new w.counter).1 w.storage = none)
    (hothers : ∀ id v, look id w.storage = some v → v.smscMessageId ≠ some dlr.smscMessageId) :
    Kept w.counter dlr (start w request codec event) fun
      | .request => Hold.nothing
      | .receipt => Stage.waiting := by
  refine ⟨⟨hgood, fun id v _ => hothers id v, rfl, hfree, Or.inl rfl⟩, fun a => ?_⟩
  cases a with
  | request => exact wp_processRequest request
  | receipt => exact wp_receipt hparse hfin _

/-- A call of the request task leaves the receipt task where it is. -/
theorem kept_request (h : Kept n dlr c γ) {e : Env} (hstep : step c (.request, e) = some c') :
    ∃ γ', Kept n dlr c' γ' ∧ γ' .receipt = γ .receipt := by
  obtain ⟨g', h'⟩ := Pledged.advance h (i := .request) hstep fun op k _ post hpre =>
    request_sound h.inv e op post hpre
  exact ⟨_, h', Function.update_of_ne (by decide) _ _⟩

/-- A call of the receipt task. -/
theorem kept_receipt (hfin : dlr.status.isFinal = true) (h : Kept n dlr c γ) {e : Env}
    (htally : γ .receipt = .waiting → QueryStorage.tally .inFlight c.state.storage ≤ 1000)
    (hstep : step c (.receipt, e) = some c') :
    ∃ γ', Kept n dlr c' γ' ∧ Moves (Recorded n dlr c.state) (γ .receipt) (γ' .receipt) := by
  obtain ⟨op, k, htask, rfl⟩ := Pool.advance_eq_some.mp hstep
  have hi := h.each .receipt
  rw [htask] at hi
  obtain ⟨g', hpost, hinv, hmoves⟩ := receipt_sound hfin h.inv e htally op _ hi
  refine ⟨_, h.set .receipt hinv hpost, ?_⟩
  rw [Function.update_self]
  exact hmoves

/-- Before its first call the receipt task waits. -/
theorem run_before {before : List Env} (h : Kept n dlr c γ) (hg : γ .receipt = .waiting)
    (hrun : run step c (before.map fun e => (.request, e)) = some c') :
    ∃ γ', Kept n dlr c' γ' ∧ γ' .receipt = .waiting := by
  induction before generalizing c γ with
  | nil => cases hrun; exact ⟨γ, h, hg⟩
  | cons e before ih =>
    obtain ⟨t, ht, hrest⟩ := run_cons_eq_some.mp hrun
    obtain ⟨γ', h', hg'⟩ := kept_request h ht
    exact ih h' (hg'.trans hg) hrest

/-- What its first call found stays found, what it missed stays missed. -/
def Decided (recorded : Prop) (g : Stage) : Prop :=
  (recorded ∧ (g = .found ∨ g = .settled)) ∨ (¬ recorded ∧ g = .missed)

theorem Decided.moves {recorded recorded' : Prop} {g g' : Stage} (h : Decided recorded g)
    (hmoves : Moves recorded' g g') : Decided recorded g' := by
  rcases h with ⟨hrec, rfl | rfl⟩ | ⟨hrec, rfl⟩
  · exact Or.inl ⟨hrec, Or.inr hmoves⟩
  · exact Or.inl ⟨hrec, Or.inr hmoves⟩
  · exact Or.inr ⟨hrec, hmoves⟩

theorem Decided.not_waiting {recorded : Prop} {g : Stage} (h : Decided recorded g) :
    g ≠ .waiting := by
  rintro rfl
  rcases h with ⟨-, h | h⟩ | ⟨-, h⟩ <;> cases h

theorem run_after (hfin : dlr.status.isFinal = true) {recorded : Prop}
    {after : List (Actor × Env)} (h : ∃ γ, Kept n dlr c γ ∧ Decided recorded (γ .receipt))
    (hrun : run step c after = some c') :
    ∃ γ, Kept n dlr c' γ ∧ Decided recorded (γ .receipt) := by
  have hkeeps : ∀ (c : Race S D) a c', (∃ γ, Kept n dlr c γ ∧ Decided recorded (γ .receipt)) →
      step c a = some c' → ∃ γ, Kept n dlr c' γ ∧ Decided recorded (γ .receipt) := by
    rintro c ⟨actor, e⟩ c' ⟨γ, hγ, hd⟩ hstep
    cases actor with
    | request =>
      obtain ⟨γ', h', hg'⟩ := kept_request hγ hstep
      exact ⟨γ', h', by rw [hg']; exact hd⟩
    | receipt =>
      obtain ⟨γ', h', hmoves⟩ :=
        kept_receipt hfin hγ (fun hw => absurd hw hd.not_waiting) hstep
      exact ⟨γ', h', hd.moves hmoves⟩
  exact run_inv hkeeps h hrun

end Runs

/-- **The receipt of the racing request is applied exactly when the upstream id was in the record at
    the receipt task's first call**, over any storage: the state the receipt gives, or `InFlight` for
    good. -/
theorem settled_iff {w : World S (Output D)} {request : ForwardRequest} {codec : DlrCodec D}
    {event : DlrEvent D} {dlr : DeliveryReceipt}
    (hparse : codec.parseDlr event.deliverSm = some dlr) (hfin : dlr.status.isFinal = true)
    (hgood : QueryStorage.Good w.storage)
    (hfree : look (MessageId.new w.counter).1 w.storage = none)
    (hothers : ∀ id v, look id w.storage = some v → v.smscMessageId ≠ some dlr.smscMessageId)
    {before : List Env} {e : Env} {after : List (Actor × Env)} {c₁ c : Race S D}
    (hbefore : run step (start w request codec event) (before.map fun e => (.request, e)) = some c₁)
    (htally : QueryStorage.tally .inFlight c₁.state.storage ≤ 1000)
    (hafter : run step c₁ ((.receipt, e) :: after) = some c) (hdone : Finished c) :
    (∃ v, look (MessageId.new w.counter).1 c.state.storage = some v ∧
        v.smscMessageId = some dlr.smscMessageId ∧ v.state = dlr.status.outcome) ↔
      Recorded w.counter dlr c₁.state := by
  obtain ⟨γ₁, h₁, hw⟩ := run_before (kept_start hparse hfin hgood hfree hothers) rfl hbefore
  obtain ⟨c₂, hstep, hrest⟩ := run_cons_eq_some.mp hafter
  obtain ⟨γ₂, h₂, hmoves⟩ := kept_receipt hfin h₁ (fun _ => htally) hstep
  have hdecided : Decided (Recorded w.counter dlr c₁.state) (γ₂ .receipt) := by
    rw [hw] at hmoves
    rcases hmoves with ⟨hrec, hg⟩ | ⟨hrec, hg⟩
    · exact Or.inl ⟨hrec, Or.inl hg⟩
    · exact Or.inr ⟨hrec, hg⟩
  obtain ⟨γ, h, hd⟩ := run_after hfin ⟨γ₂, h₂, hdecided⟩ hrest
  have hview := h.inv.view
  have hreceipt := h.each .receipt
  rw [hdone] at hreceipt
  constructor
  · rintro ⟨v, hlook, hsmsc, hst⟩
    by_contra hnot
    rw [h.inv.closed_of_recorded ⟨v, hlook, hsmsc⟩] at hview
    rcases hd with ⟨hrec, -⟩ | ⟨-, hg⟩
    · exact hnot hrec
    · rw [hg] at hview
      obtain ⟨v', hlook', hafter'⟩ := hview
      obtain rfl := Option.some.inj (hlook.symm.trans hlook')
      exact outcome_ne_live dlr.status (Or.inl (hafter' hsmsc)) hst.symm
  · intro hrec
    have hsettled : γ .receipt = .settled := by
      rcases hd with ⟨-, hg | hg⟩ | ⟨hnot, -⟩
      · rw [hg] at hreceipt
        rcases hreceipt with h | h <;> cases h
      · exact hg
      · exact absurd hrec hnot
    rw [h.inv.closed_of_found (Or.inr hsettled), hsettled] at hview
    exact hview

end Race

/-! ## Receipts applied completely -/

section Alone

variable {codec : DlrCodec D} {event : DlrEvent D} {dlr : DeliveryReceipt}
  (hparse : codec.parseDlr event.deliverSm = some dlr) (hfin : dlr.status.isFinal = true)

include hparse hfin

/-- A receipt is applied whatever its queries meet exactly when they always pick something. -/
theorem forall_applied_iff [QueryStorage S] {s : S} (hgood : QueryStorage.Good s) :
    (∀ (env : Nat → Env) (w : World S (Output D)), w.storage = s →
        Applied dlr s (afterDlr codec event env w).storage) ↔
      ∀ env₀ env₁, pick dlr.smscMessageId env₀ env₁ s ≠ none := by
  constructor
  · intro h env₀ env₁
    let env : Nat → Env := fun i => clientReady (if i = 0 then env₀ else env₁)
    have happlied := h env ⟨s, 0, []⟩ rfl
    exact (applied_iff_pick hparse hfin env (w := ⟨s, 0, []⟩) hgood).mp happlied
  · rintro h env w rfl
    exact (applied_iff_pick hparse hfin env hgood).mpr (h _ _)

theorem forall_applied_memory {s : MemoryStorage} (hkeyed : MemoryStorage.Keyed s) :
    (∀ (env : Nat → Env) (w : World MemoryStorage (Output D)), w.storage = s →
        Applied dlr s (afterDlr codec event env w).storage) ↔
      ¬ Hidden dlr.smscMessageId .inFlight s ∨ ¬ Hidden dlr.smscMessageId .retrying s := by
  rw [forall_applied_iff hparse hfin hkeyed, forall_pick_iff]

theorem forall_applied_persistent {s : PersistentStorage} (hindexed : PersistentStorage.Indexed s) :
    (∀ (env : Nat → Env) (w : World PersistentStorage (Output D)), w.storage = s →
        Applied dlr s (afterDlr codec event env w).storage) ↔
      firstCarrier dlr.smscMessageId .inFlight s ≠ none ∨
        firstCarrier dlr.smscMessageId .retrying s ≠ none := by
  rw [forall_applied_iff hparse hfin hindexed, ← not_and_or]
  have hpick : ∀ env₀ env₁, pick dlr.smscMessageId env₀ env₁ s = none ↔
      firstCarrier dlr.smscMessageId .inFlight s = none ∧
        firstCarrier dlr.smscMessageId .retrying s = none := by
    intro env₀ env₁
    rw [← Option.or_eq_none_iff, ← pick_persistent _ env₀ env₁, Option.map_eq_none_iff]
  constructor
  · intro h
    rw [← hpick ⟨⟨0, 0⟩, .listed⟩ ⟨⟨0, 0⟩, .listed⟩]
    exact h _ _
  · intro h env₀ env₁ hnone
    exact h ((hpick env₀ env₁).mp hnone)

end Alone

/-- Over the back end `S`, a finished run of the race has left the request's message in the state the
    receipt gives exactly when the upstream id was in the record at the first query of `process_dlr`;
    for a fresh message id, a receipt id that no other message carries, and no more `InFlight`
    messages than that query returns. -/
def Race.DecidedByFirstQuery (S : Type) [Storage S] [QueryStorage S] (codec : DlrCodec D)
    (event : DlrEvent D) (dlr : DeliveryReceipt) : Prop :=
  ∀ (w : World S (Output D)) (request : ForwardRequest) (before : List Env) (e : Env)
    (after : List (Actor × Env)) (c₁ c : Race S D),
    QueryStorage.Good w.storage →
    look (MessageId.new w.counter).1 w.storage = none →
    (∀ id v, look id w.storage = some v → v.smscMessageId ≠ some dlr.smscMessageId) →
    run Race.step (Race.start w request codec event) (before.map fun e => (.request, e)) = some c₁ →
    QueryStorage.tally .inFlight c₁.state.storage ≤ 1000 →
    run Race.step c₁ ((.receipt, e) :: after) = some c → Race.Finished c →
    ((∃ v, look (MessageId.new w.counter).1 c.state.storage = some v ∧
        v.smscMessageId = some dlr.smscMessageId ∧ v.state = dlr.status.outcome) ↔
      Race.Recorded w.counter dlr c₁.state)

/-- **When final receipts are applied.**  Alone, over the in-memory store: when fewer than a thousand
    other messages are in the state of a carrier; over the persistent one: when a carrier is among the
    first thousand records of its state.  Against the request itself: when the upstream id has been
    recorded by the time `process_dlr` makes its first query. -/
theorem receipts_applied_iff (codec : DlrCodec D) (event : DlrEvent D) (dlr : DeliveryReceipt)
    (hparse : codec.parseDlr event.deliverSm = some dlr) (hfin : dlr.status.isFinal = true) :
    (∀ s : MemoryStorage, MemoryStorage.Keyed s →
      ((∀ (env : Nat → Env) (w : World MemoryStorage (Output D)), w.storage = s →
          Applied dlr s (afterDlr codec event env w).storage) ↔
        ¬ Hidden dlr.smscMessageId .inFlight s ∨ ¬ Hidden dlr.smscMessageId .retrying s)) ∧
    (∀ s : PersistentStorage, PersistentStorage.Indexed s →
      ((∀ (env : Nat → Env) (w : World PersistentStorage (Output D)), w.storage = s →
          Applied dlr s (afterDlr codec event env w).storage) ↔
        firstCarrier dlr.smscMessageId .inFlight s ≠ none ∨
          firstCarrier dlr.smscMessageId .retrying s ≠ none)) ∧
    Race.DecidedByFirstQuery MemoryStorage codec event dlr ∧
    Race.DecidedByFirstQuery PersistentStorage codec event dlr := by
  refine ⟨fun s hkeyed => forall_applied_memory hparse hfin hkeyed,
    fun s hindexed => forall_applied_persistent hparse hfin hindexed, ?_, ?_⟩
  · intro w request before e after c₁ c hgood hfree hothers hbefore htally hafter hdone
    exact Race.settled_iff hparse hfin hgood hfree hothers hbefore htally hafter hdone
  · intro w request before e after c₁ c hgood hfree hothers hbefore htally hafter hdone
    exact Race.settled_iff hparse hfin hgood hfree hothers hbefore htally hafter hdone

/-- Surroundings in which the upstream accepts the message under the id `"1"`. -/
def upstreamEnv : Env :=
  ⟨⟨⟨0, 0⟩, .listed⟩, some ⟨"route", "cluster", []⟩, some false, true, .submitSmResp 0 "1", true, true⟩

/-- The request over an empty store, and the receipt that says `"1"` was delivered. -/
def racers : Race MemoryStorage Unit :=
  .start ⟨.withConfig ⟨1000, 512, 10⟩, 0, []⟩ sampleRequest deliveredOne ⟨(), "cluster", "b:2775"⟩

/-- So many calls of the task. -/
def turns (a : Actor) (n : Nat) : List (Actor × Env) := List.replicate n (a, upstreamEnv)

/-- The request runs to its end and then the receipt: the message is `Delivered`. -/
theorem receipt_after_request :
    ∃ c v, run Race.step racers (turns .request 9 ++ turns .receipt 4) = some c ∧ Race.Finished c ∧
      look ⟨0⟩ c.state.storage = some v ∧ v.smscMessageId = some "1" ∧ v.state = .delivered := by
  obtain ⟨-, -, hrace, -⟩ :=
    receipts_applied_iff deliveredOne ⟨(), "cluster", "b:2775"⟩ ⟨"1", .delivered, none⟩ rfl rfl
  have hsettled := hrace ⟨.withConfig ⟨1000, 512, 10⟩, 0, []⟩ sampleRequest
    (List.replicate 9 upstreamEnv) upstreamEnv (turns .receipt 3) _ _ (fun id m h => nomatch h) rfl
    (fun id v h => nomatch h) rfl (by decide) rfl (by rintro (_ | _) <;> rfl)
  obtain ⟨v, hlook, hsmsc, hst⟩ := hsettled.mpr ⟨_, rfl, rfl⟩
  exact ⟨_, v, rfl, by rintro (_ | _) <;> rfl, hlook, hsmsc, hst⟩

/-- The receipt comes between the reply and the update that records it: the message is `InFlight`, and
    nothing is left that would settle it. -/
theorem receipt_before_record :
    ¬ ∀ (schedule : List (Actor × Env)) (c : Race MemoryStorage Unit),
      run Race.step racers schedule = some c → Race.Finished c →
      ∀ v, look ⟨0⟩ c.state.storage = some v → v.smscMessageId = some "1" → v.state = .delivered := by
  intro hall
  have h := hall (turns .request 7 ++ turns .receipt 2 ++ turns .request 2) _ rfl ?_ _ rfl rfl
  · cases h
  · rintro (_ | _) <;> rfl

end Smppd.Forwarder
