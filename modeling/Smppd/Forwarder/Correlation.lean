/-
  CORRELATION of a receipt with its message.

  `process_dlr`, run alone, comes down to `pick`: the first carrier of the receipt's id among the
  first 1000 `InFlight` messages of the store, or else among the first 1000 `Retrying` ones.  Nothing
  picked, nothing happens; otherwise the picked message is settled (for a final status) and the
  receipt goes to the client that submitted it (`processDlr_none`, `processDlr_some`).

  What a scan can pick depends on the order in which a back end lists the messages of a state:

  * the persistent one lists them in the order of their index keys;
  * the in-memory one lists them in ANY order, so a carrier may be hidden behind 1000 others, and any
    carrier may be met first (`exists_pick_iff`, `forall_pick_iff`).
-/
import Smppd.Store.Query
import Smppd.Forwarder.Dlr

set_option linter.unusedVariables false

namespace Smppd.Forwarder

open Smppd.Store Smppd.Gateway Prog Table

variable {D S : Type} [Storage S]

/-! ## What `process_dlr` does -/

/-- One of the two queries of `find_message_by_smsc_id`, and the loop over its result. -/
def scan (smscId : String) (env : StoreEnv) (state : MessageState) (s : S) : Option StoredMessage :=
  (Storage.query env (.byState state 1000) s).find? (carries smscId)

/-- The message a receipt is correlated with, when its queries meet these environments. -/
def pick (smscId : String) (env₀ env₁ : StoreEnv) (s : S) : Option StoredMessage :=
  (scan smscId env₀ .inFlight s).or (scan smscId env₁ .retrying s)

theorem findMessageBySmscId_exec (smscId : String) (env : Nat → Env) (w : World S (Output D)) :
    ∃ n, (findMessageBySmscId smscId).exec handle env w =
      (pick smscId (env 0).store (env 1).store w.storage, w, fun i => env (i + n)) := by
  unfold findMessageBySmscId pick
  simp only [request_bind, exec_call, handle]
  rw [show (Storage.query (env 0).store (.byState .inFlight 1000) w.storage).find? (carries smscId)
    = scan smscId (env 0).store .inFlight w.storage from rfl]
  cases scan smscId (env 0).store .inFlight w.storage with
  | some msg => exact ⟨1, rfl⟩
  | none => exact ⟨2, rfl⟩

/-- The store after the receipt, when the message `m` was picked. -/
def settled (dlr : DeliveryReceipt) (m : StoredMessage) (env : StoreEnv) (s : S) : S :=
  if dlr.status.isFinal then (Storage.update env m.id (settle dlr env.clock) s).1 else s

/-- What has been sent out after the receipt, when a client session is there and has room. -/
def forwarded (systemId : String) (deliver : D) (session accepts : Bool) (sent : List (Output D)) :
    List (Output D) :=
  if session && accepts then sent ++ [.receipt systemId deliver] else sent

theorem forwardToClient_exec (systemId : String) (deliver : D) (env : Nat → Env)
    (w : World S (Output D)) :
    ((forwardToClient systemId deliver).exec handle env w).2.1 =
      { w with sent := forwarded systemId deliver (env 0).session (env 1).accepts w.sent } := by
  unfold forwardToClient forwarded
  simp only [request_bind, exec_call, handle]
  cases (env 0).session with
  | false => rfl
  | true => rfl

/-- The world after `process_dlr`, run alone. -/
def afterDlr (codec : DlrCodec D) (event : DlrEvent D) (env : Nat → Env) (w : World S (Output D)) :
    World S (Output D) :=
  ((processDlr codec event).exec handle env w).2.1

theorem afterDlr_notDlr {codec : DlrCodec D} {event : DlrEvent D}
    (hparse : codec.parseDlr event.deliverSm = none) (env : Nat → Env) (w : World S (Output D)) :
    afterDlr codec event env w = w := by
  unfold afterDlr processDlr
  rw [hparse]
  rfl

section Receipt

variable {codec : DlrCodec D} {event : DlrEvent D} {dlr : DeliveryReceipt}
  (hparse : codec.parseDlr event.deliverSm = some dlr) (env : Nat → Env) (w : World S (Output D))

include hparse

/-- Nothing picked, nothing done. -/
theorem afterDlr_none (hpick : pick dlr.smscMessageId (env 0).store (env 1).store w.storage = none) :
    afterDlr codec event env w = w := by
  obtain ⟨n, hfind⟩ := findMessageBySmscId_exec dlr.smscMessageId env w
  unfold afterDlr processDlr
  simp only [hparse]
  rw [exec_bind, hfind, hpick]
  rfl

/-- The picked message is settled, and its client gets the receipt. -/
theorem afterDlr_some {m : StoredMessage}
    (hpick : pick dlr.smscMessageId (env 0).store (env 1).store w.storage = some m) :
    ∃ i j k, afterDlr codec event env w =
      ⟨settled dlr m (env i).store w.storage, w.counter,
        forwarded m.systemId event.deliverSm (env j).session (env k).accepts w.sent⟩ := by
  obtain ⟨n, hfind⟩ := findMessageBySmscId_exec dlr.smscMessageId env w
  unfold afterDlr processDlr settled
  simp only [hparse]
  rw [exec_bind, hfind, hpick]
  cases hfin : dlr.status.isFinal with
  | true =>
    refine ⟨n, 1 + n, 2 + n, ?_⟩
    simp only [request_bind, exec_call, handle, if_true, forwardToClient_exec, Nat.zero_add]
  | false =>
    refine ⟨0, n, 1 + n, ?_⟩
    simp only [Bool.false_eq_true, if_false, forwardToClient_exec, Nat.zero_add]

end Receipt

/-! ## What the receipt changes -/

/-- What settling does to the fields a receipt can see. -/
def settleSummary (dlr : DeliveryReceipt) (v : Summary) : Summary :=
  if dlr.status.isSuccess then { v with state := .delivered }
  else if dlr.status.isFailure then
    { v with
      state := .failed
      lastErrorCode := dlr.errorCode
      lastError := some ("DLR: " ++ dlr.status.asStr) }
  else v

theorem summary_settle (dlr : DeliveryReceipt) (clock : Clock) (m : StoredMessage) :
    (settle dlr clock m).summary = settleSummary dlr m.summary := by
  unfold settle settleSummary
  split
  · rfl
  · split <;> rfl

theorem settle_id (dlr : DeliveryReceipt) (clock : Clock) (m : StoredMessage) :
    (settle dlr clock m).id = m.id := by
  unfold settle
  split
  · rfl
  · split <;> rfl

/-- The state a final receipt gives. -/
def DeliveryStatus.outcome (status : DeliveryStatus) : MessageState :=
  if status.isSuccess then .delivered else .failed

theorem settleSummary_state {dlr : DeliveryReceipt} (hfin : dlr.status.isFinal = true)
    (v : Summary) : (settleSummary dlr v).state = dlr.status.outcome := by
  unfold settleSummary DeliveryStatus.outcome
  cases hs : dlr.status.isSuccess with
  | true => rfl
  | false =>
    have hf : dlr.status.isFailure = true := by
      rw [DeliveryStatus.isFinal_iff, hs] at hfin
      exact hfin
    simp only [Bool.false_eq_true, if_false, hf, if_true]

theorem settleSummary_smsc (dlr : DeliveryReceipt) (v : Summary) :
    (settleSummary dlr v).smscMessageId = v.smscMessageId := by
  unfold settleSummary
  split
  · rfl
  · split <;> rfl

/-- A final outcome is neither `InFlight` nor `Retrying`. -/
theorem outcome_ne_live (status : DeliveryStatus) {state : MessageState}
    (h : state = .inFlight ∨ state = .retrying) : status.outcome ≠ state := by
  unfold DeliveryStatus.outcome
  rcases h with rfl | rfl <;> split <;> nofun

variable [QueryStorage S]

/-- A scan by state returns a message of the store that carries the id. -/
theorem scan_sound {smscId : String} {env : StoreEnv} {state : MessageState} {s : S}
    (hgood : QueryStorage.Good s) {m : StoredMessage} (h : scan smscId env state s = some m) :
    look m.id s = some m.summary ∧ m.smscMessageId = some smscId ∧ m.state = state := by
  obtain ⟨hget, hst⟩ :=
    QueryStorage.query_sound env state 1000 s m hgood (List.mem_of_find?_eq_some h)
  have hcarries : carries smscId m = true := List.find?_some h
  refine ⟨?_, of_decide_eq_true hcarries, hst⟩
  rw [← QueryStorage.look_get env, hget]
  rfl

/-- The picked message is in the store, carries the id, and is live. -/
theorem pick_sound {smscId : String} {env₀ env₁ : StoreEnv} {s : S} (hgood : QueryStorage.Good s)
    {m : StoredMessage} (h : pick smscId env₀ env₁ s = some m) :
    look m.id s = some m.summary ∧ m.smscMessageId = some smscId ∧
      (m.state = .inFlight ∨ m.state = .retrying) := by
  rcases Option.or_eq_some_iff.mp h with h | ⟨-, h⟩
  · obtain ⟨hlook, hsmsc, hst⟩ := scan_sound hgood h
    exact ⟨hlook, hsmsc, Or.inl hst⟩
  · obtain ⟨hlook, hsmsc, hst⟩ := scan_sound hgood h
    exact ⟨hlook, hsmsc, Or.inr hst⟩

/-- The store after the receipt: the picked message is settled, every other one is as it was. -/
theorem look_settled {s : S} (hgood : QueryStorage.Good s) (dlr : DeliveryReceipt)
    (m : StoredMessage) (env : StoreEnv) (id : MessageId) :
    look id (settled dlr m env s) =
      if dlr.status.isFinal = true ∧ id = m.id then (look id s).map (settleSummary dlr)
      else look id s := by
  unfold settled
  cases hfin : dlr.status.isFinal with
  | false => simp only [Bool.false_eq_true, if_false, false_and]
  | true =>
    simp only [if_true, true_and]
    rw [QueryStorage.look_update env m.id _ s id (settle_id dlr env.clock) hgood]
    split
    · rename_i hid
      rw [hid, ← QueryStorage.look_get env m.id s, Option.map_map]
      congr 1
      funext m'
      exact summary_settle dlr env.clock m'
    · rfl

/-! ## A receipt is applied exactly when something is picked -/

/-- Some live message carrying the id has been moved to the state the receipt gives. -/
def Applied (dlr : DeliveryReceipt) (s s' : S) : Prop :=
  ∃ id v v', look id s = some v ∧ v.smscMessageId = some dlr.smscMessageId ∧
    (v.state = .inFlight ∨ v.state = .retrying) ∧
    look id s' = some v' ∧ v'.smscMessageId = some dlr.smscMessageId ∧
    v'.state = dlr.status.outcome

theorem applied_iff_pick {codec : DlrCodec D} {event : DlrEvent D} {dlr : DeliveryReceipt}
    (hparse : codec.parseDlr event.deliverSm = some dlr) (hfin : dlr.status.isFinal = true)
    (env : Nat → Env) {w : World S (Output D)} (hgood : QueryStorage.Good w.storage) :
    Applied dlr w.storage (afterDlr codec event env w).storage ↔
      pick dlr.smscMessageId (env 0).store (env 1).store w.storage ≠ none := by
  constructor
  · rintro ⟨id, v, v', hv, -, hlive, hv', -, hst⟩ hnone
    rw [afterDlr_none hparse env w hnone, hv] at hv'
    obtain rfl := Option.some.inj hv'
    exact outcome_ne_live dlr.status hlive hst.symm
  · intro hne
    obtain ⟨m, hpick⟩ := Option.ne_none_iff_exists'.mp hne
    obtain ⟨hlook, hsmsc, hlive⟩ := pick_sound hgood hpick
    obtain ⟨i, j, k, hafter⟩ := afterDlr_some hparse env w hpick
    refine ⟨m.id, m.summary, settleSummary dlr m.summary, hlook, hsmsc, hlive, ?_, ?_,
      settleSummary_state hfin _⟩
    · rw [hafter]
      show look m.id (settled dlr m (env i).store w.storage) = _
      rw [look_settled hgood, if_pos ⟨hfin, rfl⟩, hlook]
      rfl
    · rw [settleSummary_smsc]
      exact hsmsc

/-! ## A receipt is confined exactly when what is picked belongs to its cluster -/

/-- The state or the errors of a message have changed. -/
def Touched (v v' : Summary) : Prop :=
  v'.state ≠ v.state ∨ v'.lastErrorCode ≠ v.lastErrorCode ∨ v'.lastError ≠ v.lastError

/-- There is a message the event's cluster was given under the receipt's id, submitted by the client. -/
def SentThrough (cluster smscId systemId : String) (s : S) : Prop :=
  ∃ id v, look id s = some v ∧ v.cluster = some cluster ∧ v.smscMessageId = some smscId ∧
    v.systemId = systemId

/-- The receipt stayed within its cluster: it touched only messages recorded for the cluster, and
    went only to a client that had submitted such a message. -/
structure Confined (codec : DlrCodec D) (event : DlrEvent D) (w w' : World S (Output D)) : Prop where
  store : ∀ id v v', look id w.storage = some v → look id w'.storage = some v' → Touched v v' →
    v.cluster = some event.cluster
  client : ∀ systemId deliver, w'.sent = w.sent ++ [.receipt systemId deliver] →
    ∃ dlr, codec.parseDlr event.deliverSm = some dlr ∧
      SentThrough event.cluster dlr.smscMessageId systemId w.storage

/-- Picking a message with this summary does no harm. -/
def Proper (cluster : String) (dlr : DeliveryReceipt) (s : S) (v : Summary) : Prop :=
  v.cluster = some cluster ∨
    (dlr.status.isFinal = false ∧ SentThrough cluster dlr.smscMessageId v.systemId s)

omit [QueryStorage S] in
theorem confined_refl (codec : DlrCodec D) (event : DlrEvent D) (w : World S (Output D)) :
    Confined codec event w w := by
  refine ⟨fun id v v' hv hv' htouch => ?_, fun systemId deliver hsent => ?_⟩
  · obtain rfl := Option.some.inj (hv.symm.trans hv')
    rcases htouch with h | h | h <;> exact absurd rfl h
  · have := congrArg List.length hsent
    rw [List.length_append, List.length_singleton] at this
    omega

/-- Picking a proper message keeps the receipt within its cluster. -/
theorem confined_of_proper {codec : DlrCodec D} {event : DlrEvent D} {dlr : DeliveryReceipt}
    (hparse : codec.parseDlr event.deliverSm = some dlr) (env : Nat → Env)
    {w : World S (Output D)} (hgood : QueryStorage.Good w.storage) {m : StoredMessage}
    (hpick : pick dlr.smscMessageId (env 0).store (env 1).store w.storage = some m)
    (hproper : Proper event.cluster dlr w.storage m.summary) :
    Confined codec event w (afterDlr codec event env w) := by
  obtain ⟨hlook, hsmsc, -⟩ := pick_sound hgood hpick
  obtain ⟨i, j, k, hafter⟩ := afterDlr_some hparse env w hpick
  rw [hafter]
  refine ⟨fun id v v' hv hv' htouch => ?_, fun systemId deliver hsent => ?_⟩
  · change look id (settled dlr m (env i).store w.storage) = some v' at hv'
    rw [look_settled hgood] at hv'
    by_cases hsettled : dlr.status.isFinal = true ∧ id = m.id
    · -- the message that changed is the one picked
      obtain ⟨hfin, rfl⟩ := hsettled
      obtain rfl : m.summary = v := Option.some.inj (hlook.symm.trans hv)
      rcases hproper with h | ⟨h, -⟩
      · exact h
      · rw [hfin] at h
        cases h
    · rw [if_neg hsettled, hv] at hv'
      obtain rfl := Option.some.inj hv'
      rcases htouch with h | h | h <;> exact absurd rfl h
  · change forwarded m.systemId event.deliverSm (env j).session (env k).accepts w.sent = _ at hsent
    unfold forwarded at hsent
    split at hsent
    · have hreceipt := List.append_cancel_left hsent
      cases hreceipt
      refine ⟨dlr, hparse, ?_⟩
      rcases hproper with h | ⟨-, h⟩
      · exact ⟨m.id, m.summary, hlook, h, hsmsc, rfl⟩
      · exact h
    · have := congrArg List.length hsent
      rw [List.length_append, List.length_singleton] at this
      omega

/-- An environment in which the client is there and has room. -/
def clientReady (env : StoreEnv) : Env := ⟨env, none, none, false, .timeout, true, true⟩

/-- A receipt that is confined whatever the surroundings has only proper messages to pick. -/
theorem proper_of_confined {codec : DlrCodec D} {event : DlrEvent D} {dlr : DeliveryReceipt}
    (hparse : codec.parseDlr event.deliverSm = some dlr) {s : S} (hgood : QueryStorage.Good s)
    (hall : ∀ env : Nat → Env, Confined codec event ⟨s, 0, []⟩ (afterDlr codec event env ⟨s, 0, []⟩))
    {env₀ env₁ : StoreEnv} {m : StoredMessage}
    (hpick : pick dlr.smscMessageId env₀ env₁ s = some m) :
    Proper event.cluster dlr s m.summary := by
  obtain ⟨hlook, hsmsc, hlive⟩ := pick_sound hgood hpick
  let env : Nat → Env := fun i => clientReady (if i = 0 then env₀ else env₁)
  obtain ⟨i, j, k, hafter⟩ := afterDlr_some hparse env (w := ⟨s, 0, []⟩) hpick
  have hconf := hall env
  rw [hafter] at hconf
  cases hfin : dlr.status.isFinal with
  | true =>
    refine Or.inl (hconf.store m.id m.summary (settleSummary dlr m.summary) hlook ?_ ?_)
    · show look m.id (settled dlr m (env i).store s) = _
      rw [look_settled hgood, if_pos ⟨hfin, rfl⟩, hlook]
      rfl
    · refine Or.inl ?_
      rw [settleSummary_state hfin]
      exact outcome_ne_live dlr.status hlive
  | false =>
    obtain ⟨dlr', hparse', hsent⟩ := hconf.client m.systemId event.deliverSm rfl
    obtain rfl : dlr = dlr' := Option.some.inj (hparse.symm.trans hparse')
    exact Or.inr ⟨hfin, hsent⟩

/-- **Confinement**, over all surroundings, is a matter of what can be picked. -/
theorem confined_iff (codec : DlrCodec D) (event : DlrEvent D) {s : S}
    (hgood : QueryStorage.Good s) :
    (∀ (env : Nat → Env) (w : World S (Output D)), w.storage = s →
      Confined codec event w (afterDlr codec event env w)) ↔
    ∀ dlr, codec.parseDlr event.deliverSm = some dlr →
      ∀ env₀ env₁ m, pick dlr.smscMessageId env₀ env₁ s = some m →
        Proper event.cluster dlr s m.summary := by
  constructor
  · intro hall dlr hparse env₀ env₁ m hpick
    exact proper_of_confined hparse hgood (fun env => hall env _ rfl) hpick
  · rintro hproper env w rfl
    cases hparse : codec.parseDlr event.deliverSm with
    | none =>
      rw [afterDlr_notDlr hparse]
      exact confined_refl codec event w
    | some dlr =>
      cases hpick : pick dlr.smscMessageId (env 0).store (env 1).store w.storage with
      | none =>
        rw [afterDlr_none hparse env w hpick]
        exact confined_refl codec event w
      | some m =>
        exact confined_of_proper hparse env hgood hpick
          (hproper dlr hparse _ _ m hpick)

/-! ## What the in-memory back end can pick -/

section Memory

variable {smscId : String} {s : MemoryStorage}

theorem scan_memory (smscId : String) (env : StoreEnv) (state : MessageState) (s : MemoryStorage) :
    scan smscId env state s =
      ((s.inState env.order state).take 1000).find? (carries smscId) := by
  show (s.query env.order (.byState state 1000)).find? _ = _
  rw [MemoryStorage.query_byState]

/-- Some order of the map hides every carrier among the messages of the state: there is none, or a
    thousand others fill the limit of the query. -/
def Hidden (smscId : String) (state : MessageState) (s : MemoryStorage) : Prop :=
  (∀ m ∈ s.inState .listed state, carries smscId m = false) ∨
    1000 ≤ (s.inState .listed state).countP fun m => !carries smscId m

theorem exists_scan_none_iff {state : MessageState} :
    (∃ env, scan smscId env state s = none) ↔ Hidden smscId state s := by
  constructor
  · rintro ⟨env, h⟩
    rw [scan_memory, List.find?_eq_none] at h
    have hmiss : ∀ m ∈ (s.inState env.order state).take 1000, carries smscId m = false :=
      fun m hm => Bool.eq_false_iff.mpr (h m hm)
    have hperm := MemoryStorage.inState_perm env.order state s
    rcases Select.scan_misses hmiss with hall | hcount
    · exact Or.inl fun m hm => hall m (hperm.mem_iff.mpr hm)
    · rw [hperm.countP_eq] at hcount
      exact Or.inr hcount
  · intro h
    refine ⟨⟨⟨0, 0⟩, .putFirst fun e => !carries smscId e.2⟩, ?_⟩
    rw [scan_memory, List.find?_eq_none]
    intro m hm
    rw [MemoryStorage.inState_putFirst (fun m => !carries smscId m)] at hm
    exact Bool.eq_false_iff.mp (Select.scan_putFirst_misses h m hm)

theorem exists_scan_some_iff (hkeyed : MemoryStorage.Keyed s) {state : MessageState}
    {m : StoredMessage} :
    (∃ env, scan smscId env state s = some m) ↔
      s.get m.id = some m ∧ m.smscMessageId = some smscId ∧ m.state = state := by
  constructor
  · rintro ⟨env, h⟩
    have hin : m ∈ s.inState env.order state := by
      rw [scan_memory] at h
      exact List.mem_of_mem_take (List.mem_of_find?_eq_some h)
    obtain ⟨⟨id, hget⟩, hst⟩ := MemoryStorage.mem_inState.mp hin
    obtain ⟨-, hsmsc, -⟩ := scan_sound hkeyed h
    refine ⟨?_, hsmsc, hst⟩
    rw [hkeyed id m hget]
    exact hget
  · rintro ⟨hget, hsmsc, hst⟩
    -- the walk that begins with this message
    refine ⟨⟨⟨0, 0⟩, .putFirst fun e => decide (e.2.id = m.id)⟩, ?_⟩
    rw [scan_memory, MemoryStorage.inState_putFirst fun m' => decide (m'.id = m.id)]
    refine Select.scan_putFirst_hits (by decide)
      (MemoryStorage.mem_inState.mpr ⟨⟨m.id, hget⟩, hst⟩) (decide_eq_true rfl)
      (decide_eq_true hsmsc) ?_
    intro m' hm' hid
    obtain ⟨⟨id', hget'⟩, -⟩ := MemoryStorage.mem_inState.mp hm'
    have hid' : id' = m.id := (hkeyed id' m' hget').symm.trans (of_decide_eq_true hid)
    rw [hid', hget] at hget'
    exact (Option.some.inj hget').symm

/-- A message the scan can pick: an `InFlight` carrier, or a `Retrying` one when the `InFlight`
    carriers can be hidden. -/
def Candidate (smscId : String) (s : MemoryStorage) (m : StoredMessage) : Prop :=
  s.get m.id = some m ∧ m.smscMessageId = some smscId ∧
    (m.state = .inFlight ∨ (m.state = .retrying ∧ Hidden smscId .inFlight s))

theorem exists_pick_iff (hkeyed : MemoryStorage.Keyed s) {m : StoredMessage} :
    (∃ env₀ env₁, pick smscId env₀ env₁ s = some m) ↔ Candidate smscId s m := by
  unfold pick Candidate
  constructor
  · rintro ⟨env₀, env₁, h⟩
    rcases Option.or_eq_some_iff.mp h with h | ⟨hnone, h⟩
    · obtain ⟨hget, hsmsc, hst⟩ := (exists_scan_some_iff hkeyed).mp ⟨env₀, h⟩
      exact ⟨hget, hsmsc, Or.inl hst⟩
    · obtain ⟨hget, hsmsc, hst⟩ := (exists_scan_some_iff hkeyed).mp ⟨env₁, h⟩
      exact ⟨hget, hsmsc, Or.inr ⟨hst, exists_scan_none_iff.mp ⟨env₀, hnone⟩⟩⟩
  · rintro ⟨hget, hsmsc, hst | ⟨hst, hhidden⟩⟩
    · obtain ⟨env, h⟩ := (exists_scan_some_iff hkeyed).mpr ⟨hget, hsmsc, hst⟩
      exact ⟨env, env, Option.or_eq_some_iff.mpr (Or.inl h)⟩
    · obtain ⟨env₀, hnone⟩ := exists_scan_none_iff.mpr hhidden
      obtain ⟨env₁, h⟩ := (exists_scan_some_iff hkeyed).mpr ⟨hget, hsmsc, hst⟩
      exact ⟨env₀, env₁, Option.or_eq_some_iff.mpr (Or.inr ⟨hnone, h⟩)⟩

/-- Every order of the map leads to a pick exactly when the carriers of one state cannot be hidden. -/
theorem forall_pick_iff :
    (∀ env₀ env₁, pick smscId env₀ env₁ s ≠ none) ↔
      ¬ Hidden smscId .inFlight s ∨ ¬ Hidden smscId .retrying s := by
  constructor
  · intro h
    by_contra hboth
    obtain ⟨h₀, h₁⟩ := not_or.mp hboth
    obtain ⟨env₀, hnone₀⟩ := exists_scan_none_iff.mpr (not_not.mp h₀)
    obtain ⟨env₁, hnone₁⟩ := exists_scan_none_iff.mpr (not_not.mp h₁)
    exact h env₀ env₁ (Option.or_eq_none_iff.mpr ⟨hnone₀, hnone₁⟩)
  · intro h env₀ env₁ hnone
    obtain ⟨h₀, h₁⟩ := Option.or_eq_none_iff.mp hnone
    rcases h with h | h
    · exact h (exists_scan_none_iff.mp ⟨env₀, h₀⟩)
    · exact h (exists_scan_none_iff.mp ⟨env₁, h₁⟩)

end Memory

/-! ## What the persistent back end picks -/

section Persistent

variable {smscId : String} {s : PersistentStorage}

/-- The first carrier among the first thousand records of the state, in the order of the index. -/
def firstCarrier (smscId : String) (state : MessageState) (s : PersistentStorage) : Option Summary :=
  ((s.summaries state).take 1000).find? fun v => v.smscMessageId = some smscId

theorem scan_persistent (smscId : String) (env : StoreEnv) (state : MessageState)
    (s : PersistentStorage) :
    (scan smscId env state s).map StoredMessage.summary = firstCarrier smscId state s := by
  show ((s.getByState env.clock state 1000).find? _).map _ = _
  rw [PersistentStorage.getByState_eq, firstCarrier,
    ← PersistentStorage.map_summary_inState env.clock, ← List.map_take, List.find?_map]
  rfl

theorem pick_persistent (smscId : String) (env₀ env₁ : StoreEnv) (s : PersistentStorage) :
    (pick smscId env₀ env₁ s).map StoredMessage.summary =
      (firstCarrier smscId .inFlight s).or (firstCarrier smscId .retrying s) := by
  rw [pick, Option.map_or, scan_persistent, scan_persistent]

end Persistent

/-! ## Receipts within their cluster -/

/-- **A receipt stays within its cluster exactly when what the scan can pick belongs to it**: the
    cluster of the event takes no part in the correlation, so every message that can be picked under
    the receipt's id must have been sent through that cluster; or, for a receipt that is not final and
    only passed on, some message sent through it must be the same client's. -/
theorem receipts_confined_iff (codec : DlrCodec D) (event : DlrEvent D) :
    (∀ s : MemoryStorage, MemoryStorage.Keyed s →
      ((∀ (env : Nat → Env) (w : World MemoryStorage (Output D)), w.storage = s →
          Confined codec event w (afterDlr codec event env w)) ↔
        ∀ dlr, codec.parseDlr event.deliverSm = some dlr →
          ∀ m, Candidate dlr.smscMessageId s m → Proper event.cluster dlr s m.summary)) ∧
    (∀ s : PersistentStorage, PersistentStorage.Indexed s →
      ((∀ (env : Nat → Env) (w : World PersistentStorage (Output D)), w.storage = s →
          Confined codec event w (afterDlr codec event env w)) ↔
        ∀ dlr, codec.parseDlr event.deliverSm = some dlr →
          ∀ v, (firstCarrier dlr.smscMessageId .inFlight s).or
              (firstCarrier dlr.smscMessageId .retrying s) = some v →
            Proper event.cluster dlr s v)) := by
  refine ⟨fun s hkeyed => ?_, fun s hindexed => ?_⟩
  · rw [confined_iff codec event hkeyed]
    constructor
    · intro h dlr hparse m hm
      obtain ⟨env₀, env₁, hpick⟩ := (exists_pick_iff hkeyed).mpr hm
      exact h dlr hparse env₀ env₁ m hpick
    · intro h dlr hparse env₀ env₁ m hpick
      exact h dlr hparse m ((exists_pick_iff hkeyed).mp ⟨env₀, env₁, hpick⟩)
  · rw [confined_iff codec event hindexed]
    constructor
    · intro h dlr hparse v hv
      have hpick := pick_persistent dlr.smscMessageId ⟨⟨0, 0⟩, .listed⟩ ⟨⟨0, 0⟩, .listed⟩ s
      rw [hv] at hpick
      obtain ⟨m, hm, rfl⟩ := Option.map_eq_some_iff.mp hpick
      exact h dlr hparse _ _ m hm
    · intro h dlr hparse env₀ env₁ m hpick
      refine h dlr hparse m.summary ?_
      rw [← pick_persistent dlr.smscMessageId env₀ env₁ s, hpick]
      rfl

/-- The sample message, accepted upstream by `cluster` under the id `"1"`. -/
def sentTo (cluster : String) (counter : Nat) : StoredMessage :=
  accepted cluster "1" ⟨0, 0⟩ (.sample counter)

/-- A receipt that says the message `"1"` was delivered. -/
def deliveredOne : DlrCodec Unit :=
  ⟨fun _ => true, fun _ => some ⟨"1", .delivered, none⟩, fun _ _ => none, fun _ _ => none⟩

/-- A store that keeps the messages given, in the order given. -/
def storing (ms : List StoredMessage) : MemoryStorage :=
  ms.foldl (fun s m => s.store .listed m) (.withConfig ⟨1000, 512, 10⟩)

theorem storing_keyed (ms : List StoredMessage) : MemoryStorage.Keyed (storing ms) := by
  have hfold : ∀ (ms : List StoredMessage) (s : MemoryStorage), MemoryStorage.Keyed s →
      MemoryStorage.Keyed (ms.foldl (fun s m => s.store .listed m) s) := by
    intro ms
    induction ms with
    | nil => intro s h; exact h
    | cons m ms ih => intro s h; exact ih _ (MemoryStorage.keyed_store h .listed m)
  exact hfold ms _ fun id m h => nomatch h

/-- One message, sent through the cluster its receipt comes from. -/
theorem receipts_confined_one :
    Confined deliveredOne ⟨(), "b", "b:2775"⟩ ⟨storing [sentTo "b" 0], 1, []⟩
      (afterDlr deliveredOne ⟨(), "b", "b:2775"⟩ (fun _ => clientReady ⟨⟨0, 0⟩, .listed⟩)
        ⟨storing [sentTo "b" 0], 1, []⟩) := by
  refine ((receipts_confined_iff deliveredOne ⟨(), "b", "b:2775"⟩).1 (storing [sentTo "b" 0])
    (storing_keyed _)).mpr ?_ _ ⟨storing [sentTo "b" 0], 1, []⟩ rfl
  rintro dlr - m ⟨hget, -, -⟩
  change ((MemoryStorage.withConfig ⟨1000, 512, 10⟩).store .listed (sentTo "b" 0)).get m.id = _ at hget
  rw [MemoryStorage.get_store] at hget
  split at hget
  · cases hget
    exact Or.inl rfl
  · split at hget <;> cases hget

/-- Two messages, sent through two clusters under the same upstream id: the receipt from cluster `b`
    can settle the message of cluster `a`. -/
theorem receipt_crosses_clusters :
    ¬ ∀ (env : Nat → Env) (w : World MemoryStorage (Output Unit)),
      w.storage = storing [sentTo "b" 1, sentTo "a" 0] →
        Confined deliveredOne ⟨(), "b", "b:2775"⟩ w (afterDlr deliveredOne ⟨(), "b", "b:2775"⟩ env w) := by
  intro hall
  have hkeyed := storing_keyed [sentTo "b" 1, sentTo "a" 0]
  have hcand : Candidate "1" (storing [sentTo "b" 1, sentTo "a" 0]) (sentTo "a" 0) :=
    ⟨MemoryStorage.get_store_self .listed (sentTo "a" 0) _, rfl, Or.inl rfl⟩
  obtain ⟨env₀, env₁, hpick⟩ := (exists_pick_iff hkeyed).mpr hcand
  rcases (confined_iff deliveredOne _ hkeyed).mp hall ⟨"1", .delivered, none⟩ rfl env₀ env₁ _ hpick
    with h | ⟨h, -⟩
  · exact absurd h (by decide)
  · cases h

end Smppd.Forwarder
