/-
  The MEMORY ACCOUNT of `MemoryStorage`: `memory_bytes` against the sizes of the stored messages.

  `store` adds the size of the message, and whatever removes a message takes off the size it has then.  The
  account balances as long as a size does not change while the message is stored; but `update` and
  `expire_old` rewrite messages where they stand, history and all, and `store` writes over a message with
  nothing taken off for it.  `Accounts` is what an operation must be for the account to stay balanced, and
  `balanced_perform_iff` says that it is exactly that, operation by operation.
-/
import Smppd.Lib.Weigh
import Smppd.Store.Contents

set_option linter.unusedVariables false

namespace Smppd.Store.MemoryStorage

open Table Machine

/-! ## The account -/

/-- The size of a message, in numbers without a bound. -/
def messageSize (m : StoredMessage) : Nat :=
  estimatedMessageSize
    + m.shortMessage.length
    + m.source.utf8ByteSize
    + m.destination.utf8ByteSize
    + m.systemId.utf8ByteSize
    + (m.cluster.map String.utf8ByteSize).getD 0
    + (m.endpoint.map String.utf8ByteSize).getD 0
    + (m.smscMessageId.map String.utf8ByteSize).getD 0
    + m.events.length * 64

/-- `memory_bytes` is the sum of the sizes of the stored messages. -/
def Balanced (s : MemoryStorage) : Prop := s.memoryBytes.toNat = (s.contents.map messageSize).sum

theorem sum_contents (s : MemoryStorage) : (s.contents.map messageSize).sum = weigh messageSize s.messages := by
  rw [contents, List.map_map]
  rfl

/-- No message is of size zero. -/
theorem messageSize_pos (m : StoredMessage) : 0 < messageSize m := by
  unfold messageSize estimatedMessageSize
  omega

/-- An operation that keeps the account balanced. -/
def Accounts (s : MemoryStorage) : Retention.Op → Prop
  | .store order message =>
    (s.pruneIfNeeded order).get message.id = none ∧
      ((s.pruneIfNeeded order).contents.map messageSize).sum + messageSize message < 2 ^ 64
  | .update id f => ∀ m, s.get id = some m → messageSize (f m) = messageSize m
  | .expireOld clock ttl => ∀ m ∈ s.contents, overdue clock ttl m = false
  | .delete _ => True
  | .pruneTerminal _ _ => True

/-! ## Removal -/

/-- A batch that is removed takes its sizes with it. -/
theorem weigh_removeAll (ids : List MessageId) (t : Tbl MessageId StoredMessage) (bytes : UInt64) :
    ∃ n, (ids.foldl (fun acc id =>
        (acc.1.erase id, acc.2 + ((acc.1.lookup id).map estimateMessageSize).getD 0)) (t, bytes)).2 =
      bytes + UInt64.ofNat n ∧ weigh messageSize t = weigh messageSize (eraseAll ids t) + n := by
  induction ids generalizing t bytes with
  | nil => exact ⟨0, (UInt64.add_zero bytes).symm, rfl⟩
  | cons id ids ih =>
    obtain ⟨n, hbytes, hweigh⟩ :=
      ih (t.erase id) (bytes + ((t.lookup id).map estimateMessageSize).getD 0)
    have hsize : ((t.lookup id).map estimateMessageSize).getD 0 =
        UInt64.ofNat (((t.lookup id).map messageSize).getD 0) := by
      cases t.lookup id <;> rfl
    refine ⟨((t.lookup id).map messageSize).getD 0 + n, ?_, ?_⟩
    · rw [List.foldl_cons, hbytes, hsize, UInt64.ofNat_add, UInt64.add_assoc]
    · have herase := weigh_erase messageSize id t
      show weigh messageSize t = weigh messageSize (eraseAll ids (t.erase id)) + _
      omega

/-- Removing a batch keeps the account balanced. -/
theorem toNat_sub_removeAll {bytes : UInt64} {t : Tbl MessageId StoredMessage}
    (h : bytes.toNat = weigh messageSize t) (ids : List MessageId) :
    (bytes - (removeAll ids t).2).toNat = weigh messageSize (removeAll ids t).1 := by
  obtain ⟨n, hbytes, hweigh⟩ := weigh_removeAll ids t 0
  have hremoved : (removeAll ids t).2 = UInt64.ofNat n := by
    rw [removeAll, hbytes, UInt64.zero_add]
  rw [hremoved, removeAll_fst]
  exact toNat_sub_ofNat (h.trans hweigh)

theorem balanced_pruneIfNeeded {s : MemoryStorage} (h : Balanced s) (order : IterOrder Entry) :
    Balanced (s.pruneIfNeeded order) := by
  unfold Balanced at *
  rw [sum_contents] at *
  unfold pruneIfNeeded
  split
  · exact toNat_sub_removeAll h (s.victims order)
  · exact h

/-! ## One operation -/

theorem balanced_store_iff {s : MemoryStorage} (h : Balanced s) (order : IterOrder Entry) (message : StoredMessage) :
    Balanced (s.store order message) ↔ Accounts s (.store order message) := by
  have hpruned := balanced_pruneIfNeeded h order
  unfold Balanced at hpruned ⊢
  rw [sum_contents] at hpruned ⊢
  show ((s.pruneIfNeeded order).memoryBytes + UInt64.ofNat (messageSize message)).toNat =
      weigh messageSize ((s.pruneIfNeeded order).messages.insert message.id message) ↔
    (s.pruneIfNeeded order).get message.id = none ∧
      ((s.pruneIfNeeded order).contents.map messageSize).sum + messageSize message < 2 ^ 64
  rw [toNat_add_ofNat hpruned, weigh_insert, sum_contents, ← hpruned]
  have hlt := (s.pruneIfNeeded order).memoryBytes.toNat_lt
  cases hget : (s.pruneIfNeeded order).get message.id with
  | none =>
    have herase := weigh_erase messageSize message.id (s.pruneIfNeeded order).messages
    rw [show (s.pruneIfNeeded order).messages.lookup message.id = none from hget] at herase
    simp only [Option.map_none, Option.getD_none, Nat.add_zero] at herase
    simp only [true_and]
    omega
  | some old =>
    -- the size of the old message stays on the account
    have herase := weigh_erase_of_lookup (w := messageSize) hget
    have hpos := messageSize_pos old
    refine iff_of_false (fun heq => ?_) fun hfree => nomatch hfree.1
    omega

theorem balanced_update_iff {s : MemoryStorage} (h : Balanced s) (id : MessageId) (f : StoredMessage → StoredMessage) :
    Balanced (s.update id f).1 ↔ Accounts s (.update id f) := by
  unfold Balanced at h ⊢
  rw [sum_contents] at h ⊢
  show _ ↔ ∀ m, s.messages.lookup id = some m → messageSize (f m) = messageSize m
  unfold update
  cases hl : s.messages.lookup id with
  | none =>
    refine iff_of_true h fun m hm => ?_
    cases hm
  | some m =>
    show s.memoryBytes.toNat = weigh messageSize (modify id f s.messages) ↔ _
    rw [weigh_modify hl, h, weigh_erase_of_lookup hl, Nat.add_left_cancel_iff]
    constructor
    · rintro heq m' hm'
      obtain rfl := Option.some.inj hm'
      exact heq.symm
    · intro hall
      exact (hall m rfl).symm

theorem balanced_delete {s : MemoryStorage} (h : Balanced s) (id : MessageId) : Balanced (s.delete id).1 := by
  unfold Balanced at h ⊢
  rw [sum_contents] at h ⊢
  unfold delete
  cases hl : s.messages.lookup id with
  | none => exact h
  | some m =>
    show (s.memoryBytes - UInt64.ofNat (messageSize m)).toNat = weigh messageSize (s.messages.erase id)
    exact toNat_sub_ofNat (h.trans (weigh_erase_of_lookup hl))

/-- A message that is marked expired has a longer history. -/
theorem messageSize_markExpired (clock : Clock) (m : StoredMessage) : messageSize m < messageSize (m.markExpired clock) := by
  have hevents : m.events.length < (m.markExpired clock).events.length := by
    show m.events.length < (m.events ++ _ ++ _).length
    rw [List.length_append, List.length_append, List.length_singleton]
    omega
  show messageSize m < estimatedMessageSize + m.shortMessage.length + m.source.utf8ByteSize
    + m.destination.utf8ByteSize + m.systemId.utf8ByteSize + (m.cluster.map String.utf8ByteSize).getD 0
    + (m.endpoint.map String.utf8ByteSize).getD 0 + (m.smscMessageId.map String.utf8ByteSize).getD 0
    + (m.markExpired clock).events.length * 64
  unfold messageSize
  omega

theorem balanced_expireOld_iff {s : MemoryStorage} (h : Balanced s) (clock : Clock) (ttl : Duration) :
    Balanced (s.expireOld clock ttl).1 ↔ Accounts s (.expireOld clock ttl) := by
  unfold Balanced at h ⊢
  rw [sum_contents] at h ⊢
  have hgrows : ∀ (id : MessageId) m, messageSize m ≤ messageSize (expireOne clock ttl m) := by
    intro _ m
    unfold expireOne
    split
    · exact Nat.le_of_lt (messageSize_markExpired clock m)
    · exact Nat.le_refl _
  show s.memoryBytes.toNat = weigh messageSize (mapVals (fun _ m => expireOne clock ttl m) s.messages) ↔
    ∀ m ∈ s.contents, overdue clock ttl m = false
  rw [h, eq_comm, weigh_mapVals_eq_iff hgrows, contents, List.forall_mem_map]
  refine forall₂_congr fun e _ => ?_
  unfold expireOne
  cases overdue clock ttl e.2 with
  | true => exact iff_of_false (Nat.ne_of_gt (messageSize_markExpired clock e.2)) Bool.false_ne_true.symm
  | false => exact iff_of_true rfl rfl

theorem balanced_pruneTerminal {s : MemoryStorage} (h : Balanced s) (clock : Clock) (maxAge : Duration) :
    Balanced (s.pruneTerminal clock maxAge).1 := by
  unfold Balanced at h ⊢
  rw [sum_contents] at h ⊢
  exact toNat_sub_removeAll h (s.outdated clock maxAge)

/-- **The step lemma**: what keeps the account balanced, exactly. -/
theorem balanced_perform_iff {s : MemoryStorage} (h : Balanced s) (op : Retention.Op) :
    Balanced (s.perform op) ↔ Accounts s op := by
  cases op with
  | store order message => exact balanced_store_iff h order message
  | update id f => exact balanced_update_iff h id f
  | delete id => exact iff_of_true (balanced_delete h id) trivial
  | expireOld clock ttl => exact balanced_expireOld_iff h clock ttl
  | pruneTerminal clock maxAge => exact iff_of_true (balanced_pruneTerminal h clock maxAge) trivial

/-! ## Every run -/

/-- **The account.**  Along a run from an empty store, whatever the operations, `memory_bytes` is the sum of
    the sizes in every state reached exactly when every operation is one that keeps the account. -/
theorem memory_bytes_iff (config : MemoryStoreConfig) (ops : List Retention.Op) :
    (∀ before after s, ops = before ++ after → run performing (withConfig config) before = some s → Balanced s) ↔
      Meets performing Accounts (withConfig config) ops := by
  have hinv : ∀ s op s', True → performing s op = some s' → True := fun _ _ _ _ _ => trivial
  have hstep : ∀ s op s', True → Balanced s → performing s op = some s' → (Balanced s' ↔ Accounts s op) := by
    intro s op s' _ hs hstep
    obtain rfl := Option.some.inj hstep
    exact balanced_perform_iff hs op
  have hempty : Balanced (withConfig config) := rfl
  exact (meets_iff_always hinv hstep trivial hempty (run_performing ops _)).symm

/-- A message that is stored and deleted leaves nothing on the account. -/
theorem memory_bytes_of_one :
    ∀ before after s, [.store .listed (.sample 0), .delete (StoredMessage.sample 0).id] = before ++ after →
      run performing (withConfig ⟨1000000, 512, 10⟩) before = some s → Balanced s := by
  refine (memory_bytes_iff _ _).mpr ⟨⟨rfl, ?_⟩, fun s _ => ⟨trivial, fun s' _ => trivial⟩⟩
  decide +kernel

/-- Delivered in between, it takes off more than was put on: the account is empty, and wraps. -/
theorem memory_bytes_wraps :
    let delivered := Retention.Op.update (StoredMessage.sample 0).id (.markDelivered ⟨1, 1⟩ "m1")
    let ops := [.store .listed (.sample 0), delivered, .delete (StoredMessage.sample 0).id]
    ∃ s, run performing (withConfig ⟨1000000, 512, 10⟩) ops = some s ∧ s.contents = [] ∧
      s.memoryBytes.toNat = 2 ^ 64 - 66 ∧ ¬ Balanced s := by
  intro delivered ops
  have hbytes : (ops.foldl perform (withConfig ⟨1000000, 512, 10⟩)).memoryBytes.toNat = 2 ^ 64 - 66 := by
    decide +kernel
  have hempty : (ops.foldl perform (withConfig ⟨1000000, 512, 10⟩)).contents = [] := by
    decide +kernel
  refine ⟨_, run_performing ops _, hempty, hbytes, fun hbal => ?_⟩
  unfold Balanced at hbal
  rw [hbytes, hempty] at hbal
  cases hbal

end Smppd.Store.MemoryStorage
