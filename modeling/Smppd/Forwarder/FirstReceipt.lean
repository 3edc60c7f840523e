/-
  THE FIRST FINAL RECEIPT WINS.

  An upstream repeats its receipts, reorders them and contradicts itself.  `FirstWins` says what a
  sequence of receipts, handled one after the other, is meant to do: a message is changed at most
  once, by a final receipt, which decides its state; a receipt that is not final, or comes after a
  final one for the same upstream id, changes nothing.

  Two of these hold on every store, since a scan only picks LIVE messages (`InFlight`, `Retrying`)
  and settling ends that: `changed_by_final` and `changed_once`.

  The third needs the first final receipt for an id to FIND the message.  Where 1000 other messages
  are in the state of a message, its receipt can be dropped, and a later one that contradicts it be
  applied instead.  `Unhidden` is the exact condition on the store at the beginning:

  * settling takes messages out of the live states and never adds one, so `Unhidden` stays
    (`unhidden_afterDlr`) and a final receipt leaves no live carrier of its id (`spent_afterDlr`);
  * without it, the receipts `DELIVRD`, `UNDELIV` for the hidden message show the difference.
-/
import Smppd.Forwarder.Correlation

set_option linter.unusedVariables false

namespace Smppd.Forwarder

open Smppd.Store Smppd.Gateway Prog Table

variable {D S : Type} [Storage S]

/-! ## Sequences of receipts -/

/-- One receipt being handled: the event, and what its calls meet. -/
structure Handling (D : Type) where
  event : DlrEvent D
  env : Nat → Env

/-- The world after a sequence of receipts, handled one after the other. -/
def afterDlrs (codec : DlrCodec D) (w : World S (Output D)) (hs : List (Handling D)) :
    World S (Output D) :=
  hs.foldl (fun w h => afterDlr codec h.event h.env w) w

theorem afterDlrs_append (codec : DlrCodec D) (w : World S (Output D)) (hs hs' : List (Handling D)) :
    afterDlrs codec w (hs ++ hs') = afterDlrs codec (afterDlrs codec w hs) hs' :=
  List.foldl_append

theorem afterDlrs_concat (codec : DlrCodec D) (w : World S (Output D)) (hs : List (Handling D))
    (h : Handling D) :
    afterDlrs codec w (hs ++ [h]) = afterDlr codec h.event h.env (afterDlrs codec w hs) :=
  afterDlrs_append codec w hs [h]

/-- The receipt of an event, when it is a final one. -/
def DlrCodec.finalDlr (codec : DlrCodec D) (event : DlrEvent D) : Option DeliveryReceipt :=
  (codec.parseDlr event.deliverSm).filter fun dlr => dlr.status.isFinal

theorem DlrCodec.finalDlr_eq_some {codec : DlrCodec D} {event : DlrEvent D} {dlr : DeliveryReceipt} :
    codec.finalDlr event = some dlr ↔
      codec.parseDlr event.deliverSm = some dlr ∧ dlr.status.isFinal = true :=
  Option.filter_eq_some_iff

theorem DlrCodec.eq_of_finalDlr {codec : DlrCodec D} {event : DlrEvent D} {dlr dlr' : DeliveryReceipt}
    (hparse : codec.parseDlr event.deliverSm = some dlr) (h : codec.finalDlr event = some dlr') :
    dlr = dlr' ∧ dlr.status.isFinal = true := by
  obtain ⟨hparse', hfin⟩ := DlrCodec.finalDlr_eq_some.mp h
  obtain rfl := Option.some.inj (hparse.symm.trans hparse')
  exact ⟨rfl, hfin⟩

/-- The receipt handled after `before` changes the state or the errors of the message. -/
def Changes (codec : DlrCodec D) (w : World S (Output D)) (before : List (Handling D))
    (h : Handling D) (id : MessageId) : Prop :=
  ∃ v v', look id (afterDlrs codec w before).storage = some v ∧
    look id (afterDlrs codec w (before ++ [h])).storage = some v' ∧ Touched v v'

/-- A receipt with nothing to say: it is not final, or a final one for its id came before it. -/
def Late (codec : DlrCodec D) (before : List (Handling D)) (h : Handling D) : Prop :=
  ∀ dlr, codec.finalDlr h.event = some dlr →
    ∃ h' ∈ before, ∃ dlr', codec.finalDlr h'.event = some dlr' ∧
      dlr'.smscMessageId = dlr.smscMessageId

/-- The first final receipt for a message decides it, and no other receipt does anything. -/
structure FirstWins (codec : DlrCodec D) (w : World S (Output D)) (hs : List (Handling D)) : Prop where
  /-- No message is changed by two receipts. -/
  once : ∀ before h between h' after id, hs = before ++ h :: (between ++ h' :: after) →
    Changes codec w before h id → ¬ Changes codec w (before ++ h :: between) h' id
  /-- What changes a message is a final receipt, and its status decides the state. -/
  final : ∀ before h after id, hs = before ++ h :: after → Changes codec w before h id →
    ∃ dlr v, codec.finalDlr h.event = some dlr ∧
      look id (afterDlrs codec w (before ++ [h])).storage = some v ∧
      v.state = if dlr.status = .delivered then .delivered else .failed
  /-- Every other receipt leaves the store as it is. -/
  late : ∀ before h after, hs = before ++ h :: after → Late codec before h →
    (afterDlrs codec w (before ++ [h])).storage = (afterDlrs codec w before).storage

/-! ## What one receipt does to the store -/

/-- A state in which a receipt can find the message. -/
def Live (state : MessageState) : Prop := state = .inFlight ∨ state = .retrying

theorem outcome_not_live (status : DeliveryStatus) : ¬ Live status.outcome :=
  fun h => outcome_ne_live status h rfl

theorem outcome_eq {status : DeliveryStatus} :
    status.outcome = if status = .delivered then MessageState.delivered else .failed := by
  cases status <;> rfl

theorem settle_state {dlr : DeliveryReceipt} (hfin : dlr.status.isFinal = true) (clock : Clock)
    (m : StoredMessage) : (settle dlr clock m).state = dlr.status.outcome := by
  rw [show (settle dlr clock m).state = (settle dlr clock m).summary.state from rfl, summary_settle,
    settleSummary_state hfin]

theorem not_touched_self (v : Summary) : ¬ Touched v v := by
  rintro (h | h | h) <;> exact h rfl

section Step

variable [QueryStorage S] {w : World S (Output D)} (hgood : QueryStorage.Good w.storage)

theorem good_settled {s : S} (hgood : QueryStorage.Good s) (dlr : DeliveryReceipt)
    (m : StoredMessage) (env : StoreEnv) : QueryStorage.Good (settled dlr m env s) := by
  unfold settled
  split
  · exact QueryStorage.good_update env m.id _ s (settle_id dlr env.clock) hgood
  · exact hgood

include hgood

/-- A receipt leaves the store alone, and then picked nothing if it was final; or it is final and
    settles a live message that carries its id. -/
theorem afterDlr_cases (codec : DlrCodec D) (h : Handling D) :
    ((afterDlr codec h.event h.env w).storage = w.storage ∧
      ∀ dlr, codec.finalDlr h.event = some dlr →
        pick dlr.smscMessageId (h.env 0).store (h.env 1).store w.storage = none) ∨
    ∃ dlr m env, codec.finalDlr h.event = some dlr ∧ look m.id w.storage = some m.summary ∧
      m.smscMessageId = some dlr.smscMessageId ∧ Live m.state ∧
      (afterDlr codec h.event h.env w).storage = settled dlr m env w.storage := by
  cases hparse : codec.parseDlr h.event.deliverSm with
  | none =>
    refine Or.inl ⟨by rw [afterDlr_notDlr hparse], fun dlr hdlr => ?_⟩
    cases hparse.symm.trans (DlrCodec.finalDlr_eq_some.mp hdlr).1
  | some dlr =>
    cases hpick : pick dlr.smscMessageId (h.env 0).store (h.env 1).store w.storage with
    | none =>
      refine Or.inl ⟨by rw [afterDlr_none hparse h.env w hpick], fun dlr' hdlr => ?_⟩
      obtain ⟨rfl, -⟩ := DlrCodec.eq_of_finalDlr hparse hdlr
      exact hpick
    | some m =>
      obtain ⟨i, j, k, hafter⟩ := afterDlr_some hparse h.env w hpick
      obtain ⟨hlook, hsmsc, hlive⟩ := pick_sound hgood hpick
      cases hfin : dlr.status.isFinal with
      | true =>
        refine Or.inr ⟨dlr, m, (h.env i).store, DlrCodec.finalDlr_eq_some.mpr ⟨hparse, hfin⟩, hlook,
          hsmsc, hlive, ?_⟩
        rw [hafter]
      | false =>
        refine Or.inl ⟨?_, fun dlr' hdlr => ?_⟩
        · rw [hafter]
          show settled dlr m (h.env i).store w.storage = _
          rw [settled, hfin, if_neg Bool.false_ne_true]
        · obtain ⟨rfl, hfin'⟩ := DlrCodec.eq_of_finalDlr hparse hdlr
          rw [hfin] at hfin'
          cases hfin'

theorem good_afterDlr (codec : DlrCodec D) (h : Handling D) :
    QueryStorage.Good (afterDlr codec h.event h.env w).storage := by
  rcases afterDlr_cases hgood codec h with ⟨hsame, -⟩ | ⟨dlr, m, env, -, -, -, -, hset⟩
  · rw [hsame]
    exact hgood
  · rw [hset]
    exact good_settled hgood dlr m env

/-- Each message is as it was, or it was live and a final receipt has settled it. -/
theorem look_afterDlr (codec : DlrCodec D) (h : Handling D) (id : MessageId) :
    look id (afterDlr codec h.event h.env w).storage = look id w.storage ∨
    ∃ dlr v, codec.finalDlr h.event = some dlr ∧ look id w.storage = some v ∧ Live v.state ∧
      v.smscMessageId = some dlr.smscMessageId ∧
      look id (afterDlr codec h.event h.env w).storage = some (settleSummary dlr v) := by
  rcases afterDlr_cases hgood codec h with
    ⟨hsame, -⟩ | ⟨dlr, m, env, hdlr, hlook, hsmsc, hlive, hset⟩
  · rw [hsame]
    exact Or.inl rfl
  · rw [hset, look_settled hgood]
    split
    · rename_i hid
      obtain ⟨-, rfl⟩ := hid
      rw [hlook]
      exact Or.inr ⟨dlr, m.summary, hdlr, rfl, hlive, hsmsc, rfl⟩
    · exact Or.inl rfl

/-- Going back one receipt: a message keeps its upstream id, and what is live has not been touched. -/
theorem look_before {codec : DlrCodec D} {h : Handling D} {id : MessageId} {v : Summary}
    (hv : look id (afterDlr codec h.event h.env w).storage = some v) :
    ∃ v₀, look id w.storage = some v₀ ∧ v₀.smscMessageId = v.smscMessageId ∧
      (Live v.state → v₀ = v) := by
  rcases look_afterDlr hgood codec h id with hsame | ⟨dlr, v₀, hdlr, hv₀, -, -, hset⟩
  · exact ⟨v, hsame.symm.trans hv, rfl, fun _ => rfl⟩
  · obtain rfl := Option.some.inj (hset.symm.trans hv)
    refine ⟨v₀, hv₀, (settleSummary_smsc dlr v₀).symm, fun hlive => ?_⟩
    rw [settleSummary_state (DlrCodec.finalDlr_eq_some.mp hdlr).2] at hlive
    exact absurd hlive (outcome_not_live dlr.status)

end Step

/-! ## Changed once, by a final receipt

  On every store: what a scan picks is live, and what has been settled is not. -/

section Run

variable [QueryStorage S] {codec : DlrCodec D} {w : World S (Output D)}
  (hgood : QueryStorage.Good w.storage)

include hgood

theorem good_afterDlrs (codec : DlrCodec D) (hs : List (Handling D)) :
    QueryStorage.Good (afterDlrs codec w hs).storage := by
  induction hs using List.reverseRecOn with
  | nil => exact hgood
  | append_singleton hs h ih =>
    rw [afterDlrs_concat]
    exact good_afterDlr ih codec h

/-- A message that is not live is out of the receipts' reach. -/
theorem look_afterDlrs_of_not_live {id : MessageId} {v : Summary} (hv : look id w.storage = some v)
    (hdead : ¬ Live v.state) (hs : List (Handling D)) :
    look id (afterDlrs codec w hs).storage = some v := by
  induction hs using List.reverseRecOn with
  | nil => exact hv
  | append_singleton hs h ih =>
    rw [afterDlrs_concat]
    rcases look_afterDlr (good_afterDlrs hgood codec hs) codec h id with
      hsame | ⟨dlr, v', -, hv', hlive, -⟩
    · rw [hsame]
      exact ih
    · obtain rfl : v = v' := Option.some.inj (ih.symm.trans hv')
      exact absurd hlive hdead

/-- What changes a message is a final receipt, and it leaves the message settled. -/
theorem changed_by_final {before : List (Handling D)} {h : Handling D} {id : MessageId}
    (hch : Changes codec w before h id) :
    ∃ dlr v, codec.finalDlr h.event = some dlr ∧
      look id (afterDlrs codec w (before ++ [h])).storage = some v ∧ v.state = dlr.status.outcome := by
  obtain ⟨v, v', hv, hv', htouch⟩ := hch
  rw [afterDlrs_concat] at hv' ⊢
  rcases look_afterDlr (good_afterDlrs hgood codec before) codec h id with
    hsame | ⟨dlr, v₀, hdlr, -, -, -, hset⟩
  · obtain rfl : v = v' := Option.some.inj (hv.symm.trans (hsame.symm.trans hv'))
    exact absurd htouch (not_touched_self v)
  · exact ⟨dlr, _, hdlr, hset, settleSummary_state (DlrCodec.finalDlr_eq_some.mp hdlr).2 v₀⟩

/-- A message that a receipt has changed is not changed again. -/
theorem changed_once {before between : List (Handling D)} {h h' : Handling D} {id : MessageId}
    (hch : Changes codec w before h id) : ¬ Changes codec w (before ++ h :: between) h' id := by
  obtain ⟨dlr, v, -, hv, hst⟩ := changed_by_final hgood hch
  have hdead : ¬ Live v.state := by
    rw [hst]
    exact outcome_not_live dlr.status
  -- settled, it stays as it is through whatever comes between
  have hstays : ∀ later, look id (afterDlrs codec w (before ++ [h] ++ later)).storage = some v := by
    intro later
    rw [afterDlrs_append]
    exact look_afterDlrs_of_not_live (good_afterDlrs hgood codec _) hv hdead later
  rintro ⟨v₁, v₂, hv₁, hv₂, htouch⟩
  rw [List.append_cons before h between] at hv₁ hv₂
  rw [hstays between] at hv₁
  rw [List.append_assoc, hstays (between ++ [h'])] at hv₂
  obtain rfl := Option.some.inj hv₁
  obtain rfl := Option.some.inj hv₂
  exact not_touched_self v htouch

end Run

/-! ## The receipts that say nothing -/

/-- No two stored messages share an upstream id. -/
def Unique (s : MemoryStorage) : Prop :=
  ∀ id id' v v' smscId, look id s = some v → look id' s = some v' →
    v.smscMessageId = some smscId → v'.smscMessageId = some smscId → id = id'

/-- Whatever the order of the map, a scan meets every live message that has an upstream id: fewer than
    1000 of the messages in its state do not carry that id. -/
def Unhidden (s : MemoryStorage) : Prop :=
  ∀ m smscId, s.get m.id = some m → m.smscMessageId = some smscId → Live m.state →
    (s.inState .listed m.state).countP (fun m' => !carries smscId m') < 1000

/-- No live message carries the id. -/
def Spent (smscId : String) (s : MemoryStorage) : Prop :=
  ∀ id v, look id s = some v → v.smscMessageId = some smscId → ¬ Live v.state

/-- What holds of the store after the receipts `before`. -/
structure Orderly (codec : DlrCodec D) (before : List (Handling D)) (s : MemoryStorage) : Prop where
  keyed : MemoryStorage.Keyed s
  unique : Unique s
  unhidden : Unhidden s
  spent : ∀ h ∈ before, ∀ dlr, codec.finalDlr h.event = some dlr → Spent dlr.smscMessageId s

section Memory

variable {codec : DlrCodec D} {h : Handling D} {w : World MemoryStorage (Output D)}

theorem unique_afterDlr (hkeyed : MemoryStorage.Keyed w.storage) (hunique : Unique w.storage) :
    Unique (afterDlr codec h.event h.env w).storage := by
  intro id id' v v' smscId hv hv' hsmsc hsmsc'
  obtain ⟨v₀, hv₀, hkeep, -⟩ := look_before hkeyed hv
  obtain ⟨v₀', hv₀', hkeep', -⟩ := look_before hkeyed hv'
  exact hunique id id' v₀ v₀' smscId hv₀ hv₀' (hkeep.trans hsmsc) (hkeep'.trans hsmsc')

/-- Receipts take messages out of the live states, and put none there. -/
theorem countP_inState_afterDlr (hkeyed : MemoryStorage.Keyed w.storage) {state : MessageState}
    (hlive : Live state) (q : StoredMessage → Bool) :
    ((afterDlr codec h.event h.env w).storage.inState .listed state).countP q ≤
      (w.storage.inState .listed state).countP q := by
  rcases afterDlr_cases (S := MemoryStorage) hkeyed codec h with
    ⟨hsame, -⟩ | ⟨dlr, m, env, hdlr, -, -, -, hset⟩
  · rw [hsame]
  · have hfin := (DlrCodec.finalDlr_eq_some.mp hdlr).2
    rw [hset, settled, if_pos hfin]
    refine MemoryStorage.countP_inState_update (fun m' hst => ?_) q m.id w.storage
    exact outcome_ne_live dlr.status hlive ((settle_state hfin env.clock m').symm.trans hst)

theorem unhidden_afterDlr (hkeyed : MemoryStorage.Keyed w.storage) (hunhidden : Unhidden w.storage) :
    Unhidden (afterDlr codec h.event h.env w).storage := by
  intro m smscId hget hsmsc hlive
  have hlook := MemoryStorage.look_of_get hget
  obtain ⟨v₀, hv₀, -, hsame⟩ := look_before (S := MemoryStorage) hkeyed hlook
  obtain rfl := hsame hlive
  -- the message that stood there before has the same state and the same upstream id
  obtain ⟨m₀, hget₀, hm₀⟩ := MemoryStorage.look_eq_some.mp hv₀
  have hid : m₀.id = m.id := hkeyed m.id m₀ hget₀
  have hst : m₀.state = m.state := congrArg Summary.state hm₀
  have hsmsc₀ : m₀.smscMessageId = some smscId := (congrArg Summary.smscMessageId hm₀).trans hsmsc
  have hcount := hunhidden m₀ smscId (by rw [hid]; exact hget₀) hsmsc₀ (by rw [hst]; exact hlive)
  rw [hst] at hcount
  exact Nat.lt_of_le_of_lt (countP_inState_afterDlr hkeyed hlive _) hcount

/-- A live carrier of an id cannot be missed. -/
theorem Unhidden.spent_of_pick_none {s : MemoryStorage} (hkeyed : MemoryStorage.Keyed s)
    (hunhidden : Unhidden s) {smscId : String} {env₀ env₁ : StoreEnv}
    (hpick : pick smscId env₀ env₁ s = none) : Spent smscId s := by
  intro id v hlook hsmsc hlive
  obtain ⟨m, hget, rfl⟩ := MemoryStorage.look_eq_some.mp hlook
  have hseen : ¬ Hidden smscId m.state s := by
    rintro (hnone | hcount)
    · have hcarries := hnone m (MemoryStorage.mem_inState.mpr ⟨⟨id, hget⟩, rfl⟩)
      exact absurd (decide_eq_true hsmsc) (Bool.eq_false_iff.mp hcarries)
    · have hlt := hunhidden m smscId (by rw [hkeyed id m hget]; exact hget) hsmsc hlive
      exact absurd hcount (Nat.not_le.mpr hlt)
  -- so the scan of its state meets it, in whatever order
  refine forall_pick_iff.mpr ?_ env₀ env₁ hpick
  rcases hlive with hst | hst
  · exact Or.inl ((show m.state = _ from hst) ▸ hseen)
  · exact Or.inr ((show m.state = _ from hst) ▸ hseen)

/-- A final receipt leaves no live carrier of its id. -/
theorem spent_afterDlr (hkeyed : MemoryStorage.Keyed w.storage) (hunique : Unique w.storage)
    (hunhidden : Unhidden w.storage) {dlr : DeliveryReceipt}
    (hdlr : codec.finalDlr h.event = some dlr) :
    Spent dlr.smscMessageId (afterDlr codec h.event h.env w).storage := by
  rcases afterDlr_cases (S := MemoryStorage) hkeyed codec h with
    ⟨hsame, hnone⟩ | ⟨dlr', m, env, hdlr', hlook, hsmsc, -, hset⟩
  · rw [hsame]
    exact hunhidden.spent_of_pick_none hkeyed (hnone dlr hdlr)
  · obtain rfl : dlr = dlr' := Option.some.inj (hdlr.symm.trans hdlr')
    -- a carrier that were still live would share its id with the message just settled
    intro id v hv hvsmsc hlive
    obtain ⟨v₀, hv₀, hkeep, -⟩ := look_before (S := MemoryStorage) hkeyed hv
    have hid : id = m.id :=
      hunique id m.id v₀ m.summary _ hv₀ hlook (hkeep.trans hvsmsc) hsmsc
    have hfin := (DlrCodec.finalDlr_eq_some.mp hdlr).2
    rw [hset, look_settled (S := MemoryStorage) hkeyed, if_pos ⟨hfin, hid⟩, hid, hlook] at hv
    obtain rfl := Option.some.inj hv
    rw [settleSummary_state hfin] at hlive
    exact outcome_not_live dlr.status hlive

/-- A spent id stays spent. -/
theorem Spent.afterDlr {smscId : String} (hspent : Spent smscId w.storage)
    (hkeyed : MemoryStorage.Keyed w.storage) :
    Spent smscId (afterDlr codec h.event h.env w).storage := by
  intro id v hv hsmsc hlive
  obtain ⟨v₀, hv₀, -, hsame⟩ := look_before (S := MemoryStorage) hkeyed hv
  obtain rfl := hsame hlive
  exact hspent id v₀ hv₀ hsmsc hlive

/-- **One receipt** keeps the store orderly. -/
theorem Orderly.afterDlr {before : List (Handling D)} (ho : Orderly codec before w.storage) :
    Orderly codec (before ++ [h]) (afterDlr codec h.event h.env w).storage := by
  refine ⟨good_afterDlr (S := MemoryStorage) ho.keyed codec h, unique_afterDlr ho.keyed ho.unique,
    unhidden_afterDlr ho.keyed ho.unhidden, fun h' hmem dlr hdlr => ?_⟩
  rcases List.mem_append.mp hmem with hbefore | hlast
  · exact (ho.spent h' hbefore dlr hdlr).afterDlr ho.keyed
  · obtain rfl := List.mem_singleton.mp hlast
    exact spent_afterDlr ho.keyed ho.unique ho.unhidden hdlr

/-- **All along the sequence** the store is orderly. -/
theorem orderly_afterDlrs (hkeyed : MemoryStorage.Keyed w.storage) (hunique : Unique w.storage)
    (hunhidden : Unhidden w.storage) (hs : List (Handling D)) :
    Orderly codec hs (afterDlrs codec w hs).storage := by
  induction hs using List.reverseRecOn with
  | nil => exact ⟨hkeyed, hunique, hunhidden, fun h hmem => absurd hmem List.not_mem_nil⟩
  | append_singleton hs h ih =>
    rw [afterDlrs_concat]
    exact ih.afterDlr

/-- On an orderly store a receipt with nothing to say does nothing. -/
theorem Orderly.late {before : List (Handling D)} (ho : Orderly codec before w.storage)
    (hlate : Late codec before h) : (Forwarder.afterDlr codec h.event h.env w).storage = w.storage := by
  rcases afterDlr_cases (S := MemoryStorage) ho.keyed codec h with
    ⟨hsame, -⟩ | ⟨dlr, m, env, hdlr, hlook, hsmsc, hlive, -⟩
  · exact hsame
  · obtain ⟨h', hmem, dlr', hdlr', hid⟩ := hlate dlr hdlr
    have hspent := ho.spent h' hmem dlr' hdlr'
    rw [hid] at hspent
    exact absurd hlive (hspent m.id m.summary hlook hsmsc)

end Memory

/-! ## The first final receipt wins exactly when no message can be hidden -/

/-- Receipts that are what they say: the PDU is the parsed receipt. -/
def plainReceipts : DlrCodec ParsedDlr := ⟨fun _ => true, some, fun _ _ => none, fun _ _ => none⟩

/-- A receipt whose two queries meet these surroundings, with the client there. -/
def receiptFor (smscId : String) (status : DeliveryStatus) (env₀ env₁ : StoreEnv) :
    Handling ParsedDlr :=
  ⟨⟨⟨smscId, status, none⟩, "a", "a:2775"⟩, fun i => clientReady (if i = 0 then env₀ else env₁)⟩

theorem parseDlr_receiptFor (smscId : String) (status : DeliveryStatus) (env₀ env₁ : StoreEnv) :
    plainReceipts.parseDlr (receiptFor smscId status env₀ env₁).event.deliverSm =
      some ⟨smscId, status, none⟩ := rfl

theorem finalDlr_receiptFor (smscId : String) {status : DeliveryStatus} (hfin : status.isFinal = true)
    (env₀ env₁ : StoreEnv) :
    plainReceipts.finalDlr (receiptFor smscId status env₀ env₁).event = some ⟨smscId, status, none⟩ :=
  DlrCodec.finalDlr_eq_some.mpr ⟨parseDlr_receiptFor smscId status env₀ env₁, hfin⟩

/-- A final receipt after another one for the same id has nothing to say. -/
theorem late_receiptFor {smscId : String} {status status' : DeliveryStatus}
    (hfin : status.isFinal = true) (hfin' : status'.isFinal = true) (env₀ env₁ env₀' env₁' : StoreEnv)
    {before : List (Handling ParsedDlr)} (hmem : receiptFor smscId status env₀ env₁ ∈ before) :
    Late plainReceipts before (receiptFor smscId status' env₀' env₁') := by
  intro dlr hdlr
  rw [finalDlr_receiptFor smscId hfin'] at hdlr
  obtain rfl := Option.some.inj hdlr
  exact ⟨_, hmem, _, finalDlr_receiptFor smscId hfin env₀ env₁, rfl⟩

/-- A final receipt that picks a message changes the store. -/
theorem receiptFor_changes {S : Type} [Storage S] [QueryStorage S] {smscId : String}
    {status : DeliveryStatus} (hfin : status.isFinal = true) {env₀ env₁ : StoreEnv}
    {w : World S (Output ParsedDlr)} (hgood : QueryStorage.Good w.storage)
    (hpick : pick smscId env₀ env₁ w.storage ≠ none) :
    (afterDlr plainReceipts (receiptFor smscId status env₀ env₁).event
      (receiptFor smscId status env₀ env₁).env w).storage ≠ w.storage := by
  intro hsame
  have happlied := (applied_iff_pick (parseDlr_receiptFor smscId status env₀ env₁) hfin
    (receiptFor smscId status env₀ env₁).env hgood).mpr hpick
  rw [hsame] at happlied
  obtain ⟨id, v, v', hv, -, hlive, hv', -, hst⟩ := happlied
  obtain rfl := Option.some.inj (hv.symm.trans hv')
  exact outcome_ne_live status hlive hst.symm

/-- Where the id of a message is its own, and 1000 others are in its state, both queries can miss it. -/
theorem hidden_of_crowded {s : MemoryStorage} (hkeyed : MemoryStorage.Keyed s) (hunique : Unique s)
    {m : StoredMessage} {smscId : String} (hget : s.get m.id = some m)
    (hsmsc : m.smscMessageId = some smscId)
    (hcrowd : 1000 ≤ (s.inState .listed m.state).countP fun m' => !carries smscId m')
    (state : MessageState) : Hidden smscId state s := by
  by_cases hst : state = m.state
  · rw [hst]
    exact Or.inr hcrowd
  · -- in any other state nobody carries the id, which belongs to `m`
    refine Or.inl fun m' hmem => Bool.eq_false_iff.mpr fun hcarries => hst ?_
    obtain ⟨⟨id, hget'⟩, hst'⟩ := MemoryStorage.mem_inState.mp hmem
    have hlook := MemoryStorage.look_of_get hget
    have hlook' := MemoryStorage.look_of_get hget'
    obtain rfl := hunique id m.id _ _ smscId hlook' hlook (of_decide_eq_true hcarries) hsmsc
    obtain rfl : m' = m := Option.some.inj (hget'.symm.trans hget)
    exact hst'.symm

/-- **The first final receipt wins, whatever the sequence and the order of the map, exactly when no live
    message can be hidden**: fewer than 1000 other messages are in its state. -/
theorem first_receipt_wins_iff {s : MemoryStorage} (hkeyed : MemoryStorage.Keyed s)
    (hunique : Unique s) :
    (∀ (D : Type) (codec : DlrCodec D) (w : World MemoryStorage (Output D)) (hs : List (Handling D)),
      w.storage = s → FirstWins codec w hs) ↔ Unhidden s := by
  constructor
  · intro hall m smscId hget hsmsc hlive
    by_contra hcrowd
    have hhidden := hidden_of_crowded hkeyed hunique hget hsmsc (Nat.not_lt.mp hcrowd)
    -- the first receipt meets the orders that hide the message, the second ones that show it
    obtain ⟨env₀, hnone₀⟩ := exists_scan_none_iff.mpr (hhidden .inFlight)
    obtain ⟨env₁, hnone₁⟩ := exists_scan_none_iff.mpr (hhidden .retrying)
    have hcand : Candidate smscId s m :=
      ⟨hget, hsmsc, hlive.imp_right fun hst => ⟨hst, hhidden .inFlight⟩⟩
    obtain ⟨env₀', env₁', hpick⟩ := (exists_pick_iff hkeyed).mpr hcand
    let first := receiptFor smscId .delivered env₀ env₁
    let second := receiptFor smscId .undeliverable env₀' env₁'
    have hdropped : afterDlr plainReceipts first.event first.env ⟨s, 0, []⟩ = ⟨s, 0, []⟩ :=
      afterDlr_none (parseDlr_receiptFor smscId .delivered env₀ env₁) first.env ⟨s, 0, []⟩
        (Option.or_eq_none_iff.mpr ⟨hnone₀, hnone₁⟩)
    have hlate := (hall ParsedDlr plainReceipts ⟨s, 0, []⟩ [first, second] rfl).late [first] second []
      rfl (late_receiptFor rfl rfl _ _ _ _ List.mem_cons_self)
    rw [afterDlrs_concat] at hlate
    simp only [afterDlrs, List.foldl_cons, List.foldl_nil, hdropped] at hlate
    refine receiptFor_changes (S := MemoryStorage) rfl (w := ⟨s, 0, []⟩) hkeyed ?_ hlate
    rw [hpick]
    exact Option.some_ne_none m
  · rintro hunhidden D codec w hs rfl
    -- only the third part needs the condition
    refine ⟨?_, ?_, ?_⟩
    · rintro before h between h' after id - hch
      exact changed_once (S := MemoryStorage) hkeyed hch
    · rintro before h after id - hch
      obtain ⟨dlr, v, hdlr, hv, hst⟩ := changed_by_final (S := MemoryStorage) hkeyed hch
      exact ⟨dlr, v, hdlr, hv, hst.trans outcome_eq⟩
    · rintro before h after - hlate
      rw [afterDlrs_concat]
      exact (orderly_afterDlrs hkeyed hunique hunhidden before).late hlate

/-- The surroundings in which the map is walked as it is listed. -/
def asListed : StoreEnv := ⟨⟨0, 0⟩, .listed⟩

/-- One message in the store: the receipt that contradicts the first one is ignored. -/
theorem first_receipt_wins_alone :
    FirstWins plainReceipts ⟨storing [sentTo "a" 0], 1, []⟩
      [receiptFor "1" .delivered asListed asListed,
        receiptFor "1" .undeliverable asListed asListed] := by
  have hentries : (storing [sentTo "a" 0]).messages.entries = [⟨⟨0⟩, sentTo "a" 0⟩] := rfl
  have honly : ∀ id v, look id (storing [sentTo "a" 0]) = some v → id = ⟨0⟩ := by
    intro id v hv
    obtain ⟨m, hget, -⟩ := MemoryStorage.look_eq_some.mp hv
    have hmem := mem_entries.mpr hget
    rw [hentries] at hmem
    exact congrArg Sigma.fst (List.mem_singleton.mp hmem)
  refine (first_receipt_wins_iff (storing_keyed _) ?_).mpr ?_ _ _ _ _ rfl
  · intro id id' v v' smscId hv hv' hsmsc hsmsc'
    exact (honly id v hv).trans (honly id' v' hv').symm
  · intro m smscId hget hsmsc hlive
    refine Nat.lt_of_le_of_lt List.countP_le_length (Nat.lt_of_le_of_lt (List.length_filter_le _ _) ?_)
    show ((storing [sentTo "a" 0]).messages.entries.map fun e => e.2).length < 1000
    rw [hentries]
    decide

/-! ## A crowd

  1001 messages in flight, each under an upstream id of its own, and a map that is always walked in
  the same order.  The receipt of the last one is dropped, until another message is settled. -/

/-- The upstream id of a message of the crowd: its number, in digits. -/
def crowdId (i : Nat) : String := String.ofList (digits i)

theorem crowdId_injective {i j : Nat} (h : crowdId i = crowdId j) : i = j :=
  digits_injective (String.ofList_injective h)

/-- A message of the crowd. -/
def crowdMessage (i : Nat) : StoredMessage := accepted "a" (crowdId i) ⟨0, 0⟩ (.sample i)

theorem carries_crowdMessage {i j : Nat} : carries (crowdId i) (crowdMessage j) = true ↔ j = i := by
  rw [carries, decide_eq_true_eq]
  constructor
  · intro h
    exact crowdId_injective (Option.some.inj h)
  · rintro rfl
    rfl

theorem crowdMessage_id_injective {i j : Nat} (hi : i < UInt64.size) (hj : j < UInt64.size)
    (h : (crowdMessage i).id = (crowdMessage j).id) : i = j := by
  have hval : UInt64.ofNat i = UInt64.ofNat j := congrArg MessageId.val h
  have hnat := congrArg UInt64.toNat hval
  rwa [UInt64.toNat_ofNat_of_lt' hi, UInt64.toNat_ofNat_of_lt' hj] at hnat

section Crowd

variable {n : Nat} (hn : n < UInt64.size)

/-- The entries of a crowd of `n`. -/
def crowdEntries (n : Nat) : List Entry :=
  (List.range n).map fun i => ⟨(crowdMessage i).id, crowdMessage i⟩

include hn in
theorem crowdEntries_nodup : (crowdEntries n).NodupKeys := by
  rw [List.NodupKeys, List.keys, crowdEntries, List.map_map]
  refine List.nodup_range.map_on fun i hi j hj h => ?_
  exact crowdMessage_id_injective (Nat.lt_trans (List.mem_range.mp hi) hn)
    (Nat.lt_trans (List.mem_range.mp hj) hn) h

/-- A store with `n` messages, all of them in flight. -/
def crowd : MemoryStorage where
  messages := ⟨crowdEntries n, crowdEntries_nodup hn⟩
  retryQueue := []
  memoryBytes := ((crowdEntries n).map fun e => MemoryStorage.estimateMessageSize e.2).foldl (· + ·) 0
  config := ⟨100000, 512, 10⟩

theorem crowd_get {id : MessageId} {m : StoredMessage} :
    (crowd hn).get id = some m ↔ ∃ i < n, id = (crowdMessage i).id ∧ m = crowdMessage i := by
  rw [MemoryStorage.get, ← mem_entries]
  show _ ∈ crowdEntries n ↔ _
  constructor
  · intro h
    obtain ⟨i, hi, he⟩ := List.mem_map.mp h
    cases he
    exact ⟨i, List.mem_range.mp hi, rfl, rfl⟩
  · rintro ⟨i, hi, rfl, rfl⟩
    exact List.mem_map.mpr ⟨i, List.mem_range.mpr hi, rfl⟩

theorem crowd_keyed : MemoryStorage.Keyed (crowd hn) := by
  intro id m hget
  obtain ⟨i, -, rfl, rfl⟩ := (crowd_get hn).mp hget
  rfl

theorem crowd_unique : Unique (crowd hn) := by
  intro id id' v v' smscId hv hv' hsmsc hsmsc'
  obtain ⟨m, hget, rfl⟩ := MemoryStorage.look_eq_some.mp hv
  obtain ⟨m', hget', rfl⟩ := MemoryStorage.look_eq_some.mp hv'
  obtain ⟨i, -, rfl, rfl⟩ := (crowd_get hn).mp hget
  obtain ⟨j, -, rfl, rfl⟩ := (crowd_get hn).mp hget'
  rw [crowdId_injective (Option.some.inj (hsmsc.trans hsmsc'.symm))]

theorem crowd_inFlight : (crowd hn).inState .listed .inFlight = (List.range n).map crowdMessage := by
  show ((crowdEntries n).map fun e => e.2).filter _ = _
  rw [crowdEntries, List.map_map]
  refine List.filter_eq_self.mpr fun m hm => ?_
  obtain ⟨i, -, rfl⟩ := List.mem_map.mp hm
  rfl

theorem scan_crowd_retrying (smscId : String) : scan smscId asListed .retrying (crowd hn) = none := by
  rw [scan_memory, List.find?_eq_none]
  intro m hm
  obtain ⟨⟨id, hget⟩, hst⟩ := MemoryStorage.mem_inState.mp (List.mem_of_mem_take hm)
  obtain ⟨i, -, -, rfl⟩ := (crowd_get hn).mp hget
  cases hst

theorem scan_crowd_inFlight (smscId : String) :
    scan smscId asListed .inFlight (crowd hn) =
      ((List.range (min 1000 n)).map crowdMessage).find? (carries smscId) := by
  rw [scan_memory, show asListed.order = .listed from rfl, crowd_inFlight, ← List.map_take,
    List.take_range]

/-- From the thousandth on, a message is out of the scan's sight. -/
theorem crowd_missed {i : Nat} (hi : 1000 ≤ i) : pick (crowdId i) asListed asListed (crowd hn) = none := by
  refine Option.or_eq_none_iff.mpr ⟨?_, scan_crowd_retrying hn _⟩
  rw [scan_crowd_inFlight, List.find?_eq_none]
  intro m hm hcarries
  obtain ⟨j, hj, rfl⟩ := List.mem_map.mp hm
  have hji : j = i := carries_crowdMessage.mp hcarries
  have hlt : j < min 1000 n := List.mem_range.mp hj
  omega

/-- Before it, a scan finds it. -/
theorem crowd_picked {i : Nat} (hi : i < 1000) (hin : i < n) :
    pick (crowdId i) asListed asListed (crowd hn) = some (crowdMessage i) := by
  refine Option.or_eq_some_iff.mpr (Or.inl ?_)
  rw [scan_crowd_inFlight]
  have hfound : ((List.range (min 1000 n)).map crowdMessage).find? (carries (crowdId i)) ≠ none := by
    rw [Ne, List.find?_eq_none]
    intro hnone
    refine hnone (crowdMessage i) (List.mem_map.mpr ⟨i, ?_, rfl⟩) (carries_crowdMessage.mpr rfl)
    exact List.mem_range.mpr (Nat.lt_min.mpr ⟨hi, hin⟩)
  obtain ⟨m, hm⟩ := Option.ne_none_iff_exists'.mp hfound
  obtain ⟨j, -, rfl⟩ := List.mem_map.mp (List.mem_of_find?_eq_some hm)
  rw [hm, carries_crowdMessage.mp (List.find?_some hm)]

/-- The messages of the crowd that are left over without two of them. -/
theorem countP_range_without {i j : Nat} (hin : i < n) (hjn : j < n) (hij : i ≠ j) :
    (List.range n).countP (fun k => k != j && k != i) = n - 2 := by
  have herase : (List.range n).filter (fun k => k != j && k != i) = ((List.range n).erase i).erase j := by
    rw [(List.nodup_range.erase i).erase_eq_filter, List.nodup_range.erase_eq_filter, List.filter_filter]
  have hi : i ∈ List.range n := List.mem_range.mpr hin
  have hj : j ∈ (List.range n).erase i := (List.mem_erase_of_ne hij.symm).mpr (List.mem_range.mpr hjn)
  rw [List.countP_eq_length_filter, herase, List.length_erase_of_mem hj, List.length_erase_of_mem hi,
    List.length_range]
  rfl

/-- Once a message of the crowd is settled, two fewer stand in the way of another. -/
theorem crowd_settled_count {dlr : DeliveryReceipt} (hfin : dlr.status.isFinal = true) (env : StoreEnv)
    {i j : Nat} (hin : i < n) (hjn : j < n) (hij : i ≠ j) :
    ((settled dlr (crowdMessage i) env (crowd hn)).inState .listed .inFlight).countP
      (fun m => !carries (crowdId j) m) ≤ n - 2 := by
  have hget : (crowd hn).messages.lookup (crowdMessage i).id = some (crowdMessage i) :=
    (crowd_get hn).mpr ⟨i, hin, rfl, rfl⟩
  have hentries : (settled dlr (crowdMessage i) env (crowd hn)).messages.entries =
      (crowdEntries n).map fun e =>
        ⟨e.1, if e.1 = (crowdMessage i).id then settle dlr env.clock e.2 else e.2⟩ := by
    rw [settled, if_pos hfin]
    show ((crowd hn).update (crowdMessage i).id (settle dlr env.clock)).1.messages.entries = _
    rw [MemoryStorage.update, hget]
    rfl
  show (((settled dlr (crowdMessage i) env (crowd hn)).messages.entries.map fun e => e.2).filter
    fun m => m.state = .inFlight).countP _ ≤ _
  rw [hentries, crowdEntries, List.map_map, List.map_map, List.countP_filter, List.countP_map,
    ← countP_range_without hin hjn hij]
  refine List.countP_mono_left fun k hk hcounts => ?_
  simp only [Function.comp_apply, Bool.and_eq_true, decide_eq_true_eq, Bool.not_eq_true'] at hcounts
  obtain ⟨hnot, hflight⟩ := hcounts
  have hki : k ≠ i := by
    rintro rfl
    rw [if_pos rfl] at hflight
    exact outcome_ne_live dlr.status (Or.inl rfl) ((settle_state hfin env.clock _).symm.trans hflight)
  have hkid : (crowdMessage k).id ≠ (crowdMessage i).id := fun hid =>
    hki (crowdMessage_id_injective (Nat.lt_trans (List.mem_range.mp hk) hn) (Nat.lt_trans hin hn) hid)
  rw [if_neg hkid] at hnot
  have hkj : k ≠ j := by
    rintro rfl
    rw [carries_crowdMessage.mpr rfl] at hnot
    cases hnot
  rw [Bool.and_eq_true, bne_iff_ne, bne_iff_ne]
  exact ⟨hkj, hki⟩

/-- When no more than 1000 others were in flight, settling one of them brings a message into sight. -/
theorem crowd_settled_picked (hsmall : n ≤ 1001) {dlr : DeliveryReceipt}
    (hfin : dlr.status.isFinal = true) (env env₀ env₁ : StoreEnv) {i j : Nat} (hin : i < n) (hjn : j < n)
    (hij : i ≠ j) :
    pick (crowdId j) env₀ env₁ (settled dlr (crowdMessage i) env (crowd hn)) ≠ none := by
  refine forall_pick_iff.mpr (Or.inl ?_) env₀ env₁
  rintro (hnone | hcount)
  · have hkid : (crowdMessage j).id ≠ (crowdMessage i).id := fun hid =>
      hij (crowdMessage_id_injective (Nat.lt_trans hjn hn) (Nat.lt_trans hin hn) hid).symm
    have hget : (settled dlr (crowdMessage i) env (crowd hn)).get (crowdMessage j).id =
        some (crowdMessage j) := by
      rw [settled, if_pos hfin]
      show ((crowd hn).update (crowdMessage i).id (settle dlr env.clock)).1.get _ = _
      rw [MemoryStorage.get_update, if_neg hkid]
      exact (crowd_get hn).mpr ⟨j, hjn, rfl, rfl⟩
    have hcarries := hnone (crowdMessage j) (MemoryStorage.mem_inState.mpr ⟨⟨_, hget⟩, rfl⟩)
    exact Bool.eq_false_iff.mp hcarries (carries_crowdMessage.mpr rfl)
  · have hleft := crowd_settled_count hn hfin env hin hjn hij
    omega

/-- The receipt of a message out of sight is dropped; after one in sight has got its own, a receipt that
    contradicts the first is applied. -/
theorem crowd_later_wins (hsmall : n ≤ 1001) {i j : Nat} (hi : i < 1000) (hj : 1000 ≤ j) (hjn : j < n) :
    ¬ FirstWins plainReceipts ⟨crowd hn, n, []⟩
      [receiptFor (crowdId j) .delivered asListed asListed,
        receiptFor (crowdId i) .delivered asListed asListed,
        receiptFor (crowdId j) .undeliverable asListed asListed] := by
  intro hwins
  have hin : i < n := by omega
  have hdropped := afterDlr_none (parseDlr_receiptFor (crowdId j) .delivered asListed asListed)
    (receiptFor (crowdId j) .delivered asListed asListed).env ⟨crowd hn, n, []⟩ (crowd_missed hn hj)
  obtain ⟨k, _, _, hother⟩ :=
    afterDlr_some (parseDlr_receiptFor (crowdId i) .delivered asListed asListed)
      (receiptFor (crowdId i) .delivered asListed asListed).env ⟨crowd hn, n, []⟩
      (crowd_picked hn hi hin)
  have hlate := hwins.late [_, _] _ [] rfl (late_receiptFor rfl rfl _ _ _ _ List.mem_cons_self)
  rw [afterDlrs_concat] at hlate
  simp only [afterDlrs, List.foldl_cons, List.foldl_nil, hdropped, hother] at hlate
  refine receiptFor_changes (S := MemoryStorage) rfl ?_ ?_ hlate
  · exact good_settled (S := MemoryStorage) (crowd_keyed hn) _ _ _
  · exact crowd_settled_picked hn hsmall rfl _ _ _ hin hjn (by omega)

end Crowd

/-- **1001 messages in flight**, and a map that is always walked in the same order: the receipt `DELIVRD`
    for the last message is dropped, and the receipt `UNDELIV` for it is applied later on. -/
theorem later_receipt_wins :
    ∃ hn : 1001 < UInt64.size, MemoryStorage.Keyed (crowd hn) ∧ Unique (crowd hn) ∧
      ¬ FirstWins plainReceipts ⟨crowd hn, 1001, []⟩
        [receiptFor "1000" .delivered asListed asListed, receiptFor "0" .delivered asListed asListed,
          receiptFor "1000" .undeliverable asListed asListed] := by
  have hn : 1001 < UInt64.size := by decide
  have hzero : 0 < 1000 := by decide
  exact ⟨hn, crowd_keyed hn, crowd_unique hn,
    crowd_later_wins hn (Nat.le_refl 1001) hzero (Nat.le_refl 1000) (Nat.lt_succ_self 1000)⟩

end Smppd.Forwarder
