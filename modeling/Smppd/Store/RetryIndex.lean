/-
  The RETRY QUEUE of `MemoryStorage` as an INDEX: the ids in `retry_queue` against the messages in state
  `Retrying`.

  `update` and `delete` look after the queue.  `store` and `expire_old` change the state of messages without
  a look at it, so the queue goes wrong when one of them makes a message `Retrying`, or makes a `Retrying`
  message something else.  What is PRUNED is terminal and does not matter.  `Queues` is what an operation must
  be for the queue to stay right, and `queueExact_perform_iff` says that it is exactly that.
-/
import Smppd.Store.Contents

set_option linter.unusedVariables false

namespace Smppd.Store.MemoryStorage

open Table Machine

/-! ## The index -/

/-- The message under the id is stored, in state `Retrying`. -/
def Retrying (s : MemoryStorage) (id : MessageId) : Prop := ∃ m, s.get id = some m ∧ m.state = .retrying

/-- The queue has the id of every stored message in state `Retrying`, once, and no other id. -/
structure QueueExact (s : MemoryStorage) : Prop where
  once : s.retryQueue.Nodup
  exact : ∀ id, id ∈ s.retryQueue ↔ Retrying s id

/-- An operation that keeps the queue right. -/
def Queues (s : MemoryStorage) : Retention.Op → Prop
  | .store _ message => Retrying s message.id ↔ message.state = .retrying
  | .expireOld clock ttl => ∀ id m, s.get id = some m → overdue clock ttl m = true → m.state ≠ .retrying
  | .update _ _ => True
  | .delete _ => True
  | .pruneTerminal _ _ => True

/-- Where the queue is left alone, it stays right when the same messages are `Retrying`. -/
theorem queueExact_congr {s s' : MemoryStorage} (h : QueueExact s) (hqueue : s'.retryQueue = s.retryQueue) :
    QueueExact s' ↔ ∀ id, Retrying s' id ↔ Retrying s id := by
  constructor
  · intro h' id
    have hnew := h'.exact id
    rw [hqueue, h.exact id] at hnew
    exact hnew.symm
  · intro hsame
    refine ⟨?_, fun id => ?_⟩
    · rw [hqueue]
      exact h.once
    · rw [hqueue, h.exact id]
      exact (hsame id).symm

/-! ## Who is `Retrying` afterwards -/

theorem not_retrying_of_terminal {s : MemoryStorage} {id : MessageId} {m : StoredMessage}
    (hget : s.get id = some m) (hterm : m.state.isTerminal = true) : ¬ Retrying s id := by
  rintro ⟨m', hget', hstate⟩
  obtain rfl : m = m' := Option.some.inj (hget.symm.trans hget')
  rw [hstate] at hterm
  cases hterm

/-- Removing messages that are not `Retrying` leaves the others as they are. -/
theorem retrying_of_removal {s s' : MemoryStorage} {id : MessageId} {removed : Prop} [Decidable removed]
    (hget : s'.get id = if removed then none else s.get id) (hterm : removed → ¬ Retrying s id) :
    Retrying s' id ↔ Retrying s id := by
  unfold Retrying at hterm ⊢
  rw [hget]
  by_cases hr : removed
  · rw [if_pos hr]
    refine iff_of_false ?_ (hterm hr)
    rintro ⟨m, hm, -⟩
    cases hm
  · rw [if_neg hr]

theorem retrying_store (order : IterOrder Entry) (message : StoredMessage) (s : MemoryStorage) (id : MessageId) :
    Retrying (s.store order message) id ↔
      if id = message.id then message.state = .retrying else Retrying s id := by
  by_cases hid : id = message.id
  · rw [if_pos hid, hid]
    have hget := get_store_self order message s
    constructor
    · rintro ⟨m, hm, hstate⟩
      obtain rfl : message = m := Option.some.inj (hget.symm.trans hm)
      exact hstate
    · intro hstate
      exact ⟨message, hget, hstate⟩
  · rw [if_neg hid]
    have hget := get_store order message s id
    rw [if_neg hid] at hget
    refine retrying_of_removal hget fun hvictim => ?_
    obtain ⟨m, hm, hterm⟩ := terminal_of_mem_victims hvictim.2
    exact not_retrying_of_terminal hm hterm

theorem retrying_pruneTerminal (clock : Clock) (maxAge : Duration) (s : MemoryStorage) (id : MessageId) :
    Retrying (s.pruneTerminal clock maxAge).1 id ↔ Retrying s id := by
  refine retrying_of_removal (get_pruneTerminal clock maxAge s id) fun houtdated => ?_
  obtain ⟨m, hm, hterm, -⟩ := mem_outdated.mp houtdated
  exact not_retrying_of_terminal hm hterm

theorem expireOne_retrying (clock : Clock) (ttl : Duration) (m : StoredMessage) :
    (expireOne clock ttl m).state = .retrying ↔ m.state = .retrying ∧ overdue clock ttl m = false := by
  unfold expireOne
  cases overdue clock ttl m with
  | true => simp [StoredMessage.markExpired]
  | false => simp

theorem retrying_expireOld (clock : Clock) (ttl : Duration) (s : MemoryStorage) (id : MessageId) :
    Retrying (s.expireOld clock ttl).1 id ↔
      ∃ m, s.get id = some m ∧ m.state = .retrying ∧ overdue clock ttl m = false := by
  unfold Retrying
  rw [get_expireOld]
  constructor
  · rintro ⟨m', hm', hstate⟩
    obtain ⟨m, hm, rfl⟩ := Option.map_eq_some_iff.mp hm'
    exact ⟨m, hm, (expireOne_retrying clock ttl m).mp hstate⟩
  · rintro ⟨m, hm, hstate⟩
    exact ⟨_, Option.map_eq_some_iff.mpr ⟨m, hm, rfl⟩, (expireOne_retrying clock ttl m).mpr hstate⟩

/-! ## One operation -/

theorem queueExact_store_iff {s : MemoryStorage} (h : QueueExact s) (order : IterOrder Entry)
    (message : StoredMessage) : QueueExact (s.store order message) ↔ Queues s (.store order message) := by
  have hqueue : (s.store order message).retryQueue = s.retryQueue := by
    unfold store pruneIfNeeded
    split <;> rfl
  rw [queueExact_congr h hqueue]
  constructor
  · intro hsame
    have hown := hsame message.id
    rw [retrying_store, if_pos rfl] at hown
    exact hown.symm
  · intro hown id
    rw [retrying_store]
    by_cases hid : id = message.id
    · rw [if_pos hid, hid]
      exact hown.symm
    · rw [if_neg hid]

/-- The queue after `update`, when it was right before. -/
theorem mem_requeue {id : MessageId} {old new : MessageState} {queue : List MessageId}
    (hold : id ∈ queue ↔ old = .retrying) (id' : MessageId) :
    id' ∈ requeue id old new queue ↔ if id' = id then new = .retrying else id' ∈ queue := by
  unfold requeue
  by_cases hid : id' = id
  · subst hid
    rw [if_pos rfl]
    by_cases hsame : old = new
    · rw [if_neg (not_not.mpr hsame), hold, hsame]
    · rw [if_pos hsame]
      by_cases hnew : new = .retrying
      · rw [if_pos hnew, iff_true_right hnew]
        split
        · assumption
        · exact List.mem_append_right _ (List.mem_singleton_self _)
      · simp [hnew]
  · rw [if_neg hid]
    split_ifs <;> simp [hid]

theorem nodup_requeue {queue : List MessageId} (h : queue.Nodup) (id : MessageId) (old new : MessageState) :
    (requeue id old new queue).Nodup := by
  unfold requeue
  split_ifs with hchanged hnew hmem
  · exact h
  · refine List.nodup_append.mpr ⟨h, List.nodup_singleton id, ?_⟩
    intro a ha b hb hab
    rw [List.mem_singleton] at hb
    apply hmem
    rw [← hb, ← hab]
    exact ha
  · exact h.filter _
  · exact h

theorem queueExact_update {s : MemoryStorage} (h : QueueExact s) (id : MessageId)
    (f : StoredMessage → StoredMessage) : QueueExact (s.update id f).1 := by
  cases hl : s.get id with
  | none =>
    have hsame : (s.update id f).1 = s := by
      unfold update
      rw [show s.messages.lookup id = none from hl]
    rw [hsame]
    exact h
  | some m =>
    have hqueue : (s.update id f).1.retryQueue = requeue id m.state (f m).state s.retryQueue := by
      unfold update
      rw [show s.messages.lookup id = some m from hl]
    have hold : id ∈ s.retryQueue ↔ m.state = .retrying := by
      rw [h.exact id]
      unfold Retrying
      simp [hl]
    refine ⟨?_, fun id' => ?_⟩
    · rw [hqueue]
      exact nodup_requeue h.once id _ _
    · rw [hqueue, mem_requeue hold]
      unfold Retrying
      rw [get_update]
      by_cases hid : id' = id
      · rw [if_pos hid, if_pos hid, hid, hl]
        simp
      · rw [if_neg hid, if_neg hid]
        exact h.exact id'

theorem queueExact_delete {s : MemoryStorage} (h : QueueExact s) (id : MessageId) :
    QueueExact (s.delete id).1 := by
  cases hl : s.get id with
  | none =>
    have hsame : (s.delete id).1 = s := by
      unfold delete
      rw [show s.messages.lookup id = none from hl]
    rw [hsame]
    exact h
  | some m =>
    have hqueue : (s.delete id).1.retryQueue = s.retryQueue.filter fun x => x ≠ id := by
      unfold delete
      rw [show s.messages.lookup id = some m from hl]
    refine ⟨?_, fun id' => ?_⟩
    · rw [hqueue]
      exact h.once.filter _
    · rw [hqueue, List.mem_filter, h.exact id']
      unfold Retrying
      rw [get_delete]
      by_cases hid : id' = id
      · simp [hid]
      · simp [hid]

theorem queueExact_expireOld_iff {s : MemoryStorage} (h : QueueExact s) (clock : Clock) (ttl : Duration) :
    QueueExact (s.expireOld clock ttl).1 ↔ Queues s (.expireOld clock ttl) := by
  have hqueue : (s.expireOld clock ttl).1.retryQueue = s.retryQueue := rfl
  rw [queueExact_congr h hqueue]
  constructor
  · intro hsame id m hget hdue hstate
    obtain ⟨m', hget', -, hfresh⟩ := (retrying_expireOld clock ttl s id).mp ((hsame id).mpr ⟨m, hget, hstate⟩)
    obtain rfl : m = m' := Option.some.inj (hget.symm.trans hget')
    rw [hdue] at hfresh
    cases hfresh
  · intro hnone id
    rw [retrying_expireOld]
    constructor
    · rintro ⟨m, hget, hstate, -⟩
      exact ⟨m, hget, hstate⟩
    · rintro ⟨m, hget, hstate⟩
      refine ⟨m, hget, hstate, ?_⟩
      cases hdue : overdue clock ttl m with
      | true => exact absurd hstate (hnone id m hget hdue)
      | false => rfl

/-- **The step lemma**: what keeps the queue right, exactly. -/
theorem queueExact_perform_iff {s : MemoryStorage} (h : QueueExact s) (op : Retention.Op) :
    QueueExact (s.perform op) ↔ Queues s op := by
  cases op with
  | store order message => exact queueExact_store_iff h order message
  | update id f => exact iff_of_true (queueExact_update h id f) trivial
  | delete id => exact iff_of_true (queueExact_delete h id) trivial
  | expireOld clock ttl => exact queueExact_expireOld_iff h clock ttl
  | pruneTerminal clock maxAge =>
    have hqueue : (s.pruneTerminal clock maxAge).1.retryQueue = s.retryQueue := rfl
    exact iff_of_true ((queueExact_congr h hqueue).mpr (retrying_pruneTerminal clock maxAge s)) trivial

/-! ## Every run -/

/-- **The retry queue as an index.**  Along a run from an empty store, whatever the operations, the queue has
    the ids of the `Retrying` messages in every state reached exactly when every operation keeps it. -/
theorem retry_queue_iff (config : MemoryStoreConfig) (ops : List Retention.Op) :
    (∀ before after s, ops = before ++ after → run performing (withConfig config) before = some s → QueueExact s) ↔
      Meets performing Queues (withConfig config) ops := by
  have hinv : ∀ s op s', True → performing s op = some s' → True := fun _ _ _ _ _ => trivial
  have hstep : ∀ s op s', True → QueueExact s → performing s op = some s' → (QueueExact s' ↔ Queues s op) := by
    intro s op s' _ hs hstep
    obtain rfl := Option.some.inj hstep
    exact queueExact_perform_iff hs op
  have hempty : QueueExact (withConfig config) := by
    refine ⟨List.nodup_nil, fun id => iff_of_false List.not_mem_nil ?_⟩
    rintro ⟨m, hget, -⟩
    cases hget
  exact (meets_iff_always hinv hstep trivial hempty (run_performing ops _)).symm

/-- A message that waits for its retry and expires meanwhile: its id is still in the queue. -/
theorem retry_queue_keeps_expired :
    let ops := [.store .listed (.sample 0),
      .update (StoredMessage.sample 0).id (.markRetry ⟨1, 1⟩ 10 none "timeout"), .expireOld ⟨5, 5⟩ 1]
    ∃ s, run performing (withConfig ⟨1000000, 512, 10⟩) ops = some s ∧
      s.retryQueue = [(StoredMessage.sample 0).id] ∧
      (s.get (StoredMessage.sample 0).id).map StoredMessage.state = some .expired ∧ ¬ QueueExact s := by
  intro ops
  have hqueue : (ops.foldl perform (withConfig ⟨1000000, 512, 10⟩)).retryQueue =
      [(StoredMessage.sample 0).id] := by
    decide +kernel
  have hstate : ((ops.foldl perform (withConfig ⟨1000000, 512, 10⟩)).get (StoredMessage.sample 0).id).map
      StoredMessage.state = some .expired := by
    decide +kernel
  refine ⟨_, run_performing ops _, hqueue, hstate, fun hexact => ?_⟩
  have hmem := (hexact.exact (StoredMessage.sample 0).id).mp (by rw [hqueue]; exact List.mem_singleton_self _)
  obtain ⟨m, hget, hretrying⟩ := hmem
  rw [hget, Option.map_some, hretrying] at hstate
  cases hstate

end Smppd.Store.MemoryStorage
