/-
  `MemoryStorage` (`src/store/memory.rs`), the message part: a hash map of messages, the retry
  queue, the memory estimate, and the operations `store` (with the capacity pruning inside it),
  `get`, `update`, `delete`, `query`, `get_pending`, `get_ready_for_retry`, `expire_old`,
  `prune_terminal`, and `get_recoverable_messages`, which it has from the trait.

  A call runs under the one write lock of `messages`, so each operation is ONE atomic function on
  the state.  The iteration order of a `HashMap` is unspecified: `store` (its pruning breaks ties of
  `updated_at` by it), `query`, `get_pending` and `get_ready_for_retry` take it as an argument.

  `expire_old` and `prune_terminal` panic when `Instant::now()` minus their argument is no `Instant`,
  before they touch the map: `tryExpireOld` says so, and where it panics there is nothing to expire
  (`get_expireOld_of_panic`).

  `memory_bytes` is an `AtomicUsize`; `fetch_add` and `fetch_sub` wrap, hence `UInt64`.  The
  percentage in `prune_if_needed` is computed in `f64` by the source and in exact arithmetic here.
-/
import Smppd.Lib.Table
import Smppd.Lib.Select
import Smppd.Store.Types

namespace Smppd.Store

open Table

/-! ## State -/

/-- The limits of the in-memory store. -/
structure MemoryStoreConfig where
  maxMessages : UInt64
  maxMemoryMb : UInt64
  prunePercent : UInt8

/-- In-memory storage implementation: the fields its message operations use. -/
structure MemoryStorage where
  messages : Tbl MessageId StoredMessage
  retryQueue : List MessageId
  memoryBytes : UInt64
  config : MemoryStoreConfig

/-- One entry of the message map. -/
abbrev Entry := Sigma fun _ : MessageId => StoredMessage

namespace MemoryStorage

/-- `MemoryStorage::with_config`. -/
def withConfig (config : MemoryStoreConfig) : MemoryStorage :=
  { messages := ∅, retryQueue := [], memoryBytes := 0, config := config }

/-- `ESTIMATED_MESSAGE_SIZE`. -/
def estimatedMessageSize : Nat := 512

/-- `estimate_message_size`. -/
def estimateMessageSize (m : StoredMessage) : UInt64 :=
  UInt64.ofNat (estimatedMessageSize
    + m.shortMessage.length
    + m.source.utf8ByteSize
    + m.destination.utf8ByteSize
    + m.systemId.utf8ByteSize
    + (m.cluster.map String.utf8ByteSize).getD 0
    + (m.endpoint.map String.utf8ByteSize).getD 0
    + (m.smscMessageId.map String.utf8ByteSize).getD 0
    + m.events.length * 64)

/-! ## Removal in bulk -/

/-- The loop `for id in ids { if let Some(msg) = messages.remove(&id) { removed_bytes += .. } }`. -/
def removeAll (ids : List MessageId) (messages : Tbl MessageId StoredMessage) :
    Tbl MessageId StoredMessage × UInt64 :=
  ids.foldl (fun acc id =>
    (acc.1.erase id, acc.2 + ((acc.1.lookup id).map estimateMessageSize).getD 0)) (messages, 0)

theorem removeAll_fold (ids : List MessageId) (acc : Tbl MessageId StoredMessage × UInt64) :
    (ids.foldl (fun acc id =>
      (acc.1.erase id, acc.2 + ((acc.1.lookup id).map estimateMessageSize).getD 0)) acc).1
      = eraseAll ids acc.1 := by
  induction ids generalizing acc with
  | nil => rfl
  | cons id ids ih =>
    rw [List.foldl_cons, ih]
    rfl

@[simp] theorem removeAll_fst (ids : List MessageId) (t : Tbl MessageId StoredMessage) :
    (removeAll ids t).1 = eraseAll ids t :=
  removeAll_fold ids (t, 0)

/-! ## Capacity pruning -/

/-- `at_message_limit || at_memory_limit`. -/
def atLimit (s : MemoryStorage) : Bool :=
  s.config.maxMessages.toNat ≤ s.messages.entries.length
    || s.config.maxMemoryMb * 1024 * 1024 ≤ s.memoryBytes

/-- `prune_count`: the configured percentage of the messages, at least one. -/
def pruneCount (s : MemoryStorage) : Nat :=
  max 1 (s.messages.entries.length * s.config.prunePercent.toNat / 100)

/-- The terminal messages with the time of their last update, in iteration order. -/
def terminals (order : IterOrder Entry) (s : MemoryStorage) : List (MessageId × Instant) :=
  ((order.arrange s.messages.entries).filter fun e => e.2.state.isTerminal).map
    fun e => (e.1, e.2.updatedAt)

/-- The ids `prune_if_needed` removes when it prunes: the terminal messages longest not updated. -/
def victims (order : IterOrder Entry) (s : MemoryStorage) : List MessageId :=
  (Select.oldest Prod.snd s.pruneCount (s.terminals order)).map Prod.fst

/-- `prune_if_needed`. -/
def pruneIfNeeded (order : IterOrder Entry) (s : MemoryStorage) : MemoryStorage :=
  if s.atLimit then
    let removed := removeAll (s.victims order) s.messages
    { s with messages := removed.1, memoryBytes := s.memoryBytes - removed.2 }
  else s

/-! ## The operations -/

/-- `store`. -/
def store (order : IterOrder Entry) (message : StoredMessage) (s : MemoryStorage) :
    MemoryStorage :=
  let s' := s.pruneIfNeeded order
  { s' with
    memoryBytes := s'.memoryBytes + estimateMessageSize message
    messages := s'.messages.insert message.id message }

/-- `get`. -/
def get (id : MessageId) (s : MemoryStorage) : Option StoredMessage := s.messages.lookup id

/-- What `update` does to the retry queue once the closure has run. -/
def requeue (id : MessageId) (old new : MessageState) (queue : List MessageId) : List MessageId :=
  if old ≠ new then
    if new = .retrying then if id ∈ queue then queue else queue ++ [id]
    else queue.filter fun x => x ≠ id
  else queue

/-- `update`; the flag says whether the message was found. -/
def update (id : MessageId) (f : StoredMessage → StoredMessage) (s : MemoryStorage) :
    MemoryStorage × Bool :=
  match s.messages.lookup id with
  | some msg =>
    ({ s with
       messages := modify id f s.messages
       retryQueue := requeue id msg.state (f msg).state s.retryQueue }, true)
  | none => (s, false)

/-- `delete`. -/
def delete (id : MessageId) (s : MemoryStorage) : MemoryStorage × Bool :=
  match s.messages.lookup id with
  | some msg =>
    ({ s with
       messages := s.messages.erase id
       memoryBytes := s.memoryBytes - estimateMessageSize msg
       retryQueue := s.retryQueue.filter fun x => x ≠ id }, true)
  | none => (s, false)

/-- The filter of `query`. -/
def selects (q : MessageQuery) (m : StoredMessage) : Bool :=
  q.state.all (fun st => m.state = st)
    && q.systemId.all (fun sys => m.systemId = sys)
    && q.destinationPrefix.all (fun p => p.toList.isPrefixOf m.destination.toList)
    && q.cluster.all (fun c => m.cluster = some c)
    && q.createdAfter.all (fun t => !decide (m.createdAt < t))

/-- `query`. -/
def query (order : IterOrder Entry) (q : MessageQuery) (s : MemoryStorage) : List StoredMessage :=
  (((order.arrange s.messages.entries).map fun e => e.2).filter (selects q)).take
    (q.limit.getD 1000)

/-- The comparison of `get_pending`: by priority, the highest first, and then by age. -/
def queueLe (a b : StoredMessage) : Bool :=
  b.priority.code < a.priority.code || (a.priority = b.priority && decide (a.createdAt ≤ b.createdAt))

/-- `get_pending`. -/
def getPending (order : IterOrder Entry) (limit : Nat) (s : MemoryStorage) : List StoredMessage :=
  ((((order.arrange s.messages.entries).map fun e => e.2).filter fun m =>
    m.state = .pending).mergeSort queueLe).take limit

/-- `get_ready_for_retry`. -/
def getReadyForRetry (order : IterOrder Entry) (clock : Clock) (s : MemoryStorage) :
    List StoredMessage :=
  ((order.arrange s.messages.entries).map fun e => e.2).filter fun m =>
    m.state = .retrying && (m.retryAt.map fun t => decide (t ≤ clock.now)).getD false

/-- `get_recoverable_messages`, the default of the trait: three queries. -/
def getRecoverableMessages (order : IterOrder Entry) (s : MemoryStorage) : List StoredMessage :=
  s.query order { state := some .pending } ++ s.query order { state := some .inFlight } ++
    s.query order { state := some .retrying }

/-- Whether `expire_old` expires the message. -/
def overdue (clock : Clock) (ttl : Duration) (m : StoredMessage) : Bool :=
  !m.state.isTerminal && m.createdAt < clock.now - ttl

/-- `expire_old` on one message. -/
def expireOne (clock : Clock) (ttl : Duration) (m : StoredMessage) : StoredMessage :=
  if overdue clock ttl m then m.markExpired clock else m

/-- `expire_old` from its cutoff on, with the number of messages it expired. -/
def expireOld (clock : Clock) (ttl : Duration) (s : MemoryStorage) : MemoryStorage × Nat :=
  ({ s with messages := mapVals (fun _ m => expireOne clock ttl m) s.messages },
    s.messages.entries.countP fun e => overdue clock ttl e.2)

/-- `expire_old`; `none` is the panic of `Instant::now() - ttl`, which comes before the lock. -/
def tryExpireOld (clock : Clock) (ttl : Duration) (s : MemoryStorage) : Option (MemoryStorage × Nat) :=
  (instantSub clock.now ttl).map fun _ => s.expireOld clock ttl

/-- The ids `prune_terminal` removes. -/
def outdated (clock : Clock) (maxAge : Duration) (s : MemoryStorage) : List MessageId :=
  (s.messages.entries.filter fun e =>
    e.2.state.isTerminal && e.2.updatedAt < clock.now - maxAge).map fun e => e.1

/-- `prune_terminal`, with the number of messages it removed. -/
def pruneTerminal (clock : Clock) (maxAge : Duration) (s : MemoryStorage) : MemoryStorage × Nat :=
  let toRemove := s.outdated clock maxAge
  let removed := removeAll toRemove s.messages
  ({ s with messages := removed.1, memoryBytes := s.memoryBytes - removed.2 }, toRemove.length)

/-! ## One lookup equation per operation

  Callers reason with these; no later module unfolds an operation. -/

/-- Membership in the terminal listing, whatever the order. -/
theorem mem_terminals {order : IterOrder Entry} {s : MemoryStorage} {p : MessageId × Instant} :
    p ∈ s.terminals order ↔
      ∃ m, s.get p.1 = some m ∧ m.state.isTerminal = true ∧ m.updatedAt = p.2 := by
  constructor
  · intro h
    obtain ⟨⟨k, m⟩, he, rfl⟩ := List.mem_map.mp h
    obtain ⟨hin, hterm⟩ := List.mem_filter.mp he
    exact ⟨m, mem_entries.mp (order.mem_arrange.mp hin), hterm, rfl⟩
  · obtain ⟨k, t⟩ := p
    rintro ⟨m, hget, hterm, rfl⟩
    refine List.mem_map.mpr ⟨⟨k, m⟩, List.mem_filter.mpr ⟨?_, hterm⟩, rfl⟩
    exact order.mem_arrange.mpr (mem_entries.mpr hget)

/-- Only terminal messages are pruned for capacity. -/
theorem terminal_of_mem_victims {order : IterOrder Entry} {s : MemoryStorage} {id : MessageId}
    (h : id ∈ s.victims order) : ∃ m, s.get id = some m ∧ m.state.isTerminal = true := by
  obtain ⟨p, hp, rfl⟩ := List.mem_map.mp h
  obtain ⟨m, hget, hterm, -⟩ := mem_terminals.mp (Select.mem_of_mem_oldest hp)
  exact ⟨m, hget, hterm⟩

theorem get_pruneIfNeeded (order : IterOrder Entry) (s : MemoryStorage) (id : MessageId) :
    (s.pruneIfNeeded order).get id =
      if s.atLimit = true ∧ id ∈ s.victims order then none else s.get id := by
  unfold pruneIfNeeded
  by_cases hlim : s.atLimit = true
  · rw [if_pos hlim]
    show (removeAll (s.victims order) s.messages).1.lookup id = _
    rw [removeAll_fst, lookup_eraseAll]
    simp only [hlim, true_and]
    rfl
  · rw [if_neg hlim, if_neg fun h => hlim h.1]

theorem get_store (order : IterOrder Entry) (message : StoredMessage) (s : MemoryStorage)
    (id : MessageId) :
    (s.store order message).get id =
      if id = message.id then some message
      else if s.atLimit = true ∧ id ∈ s.victims order then none else s.get id := by
  show ((s.pruneIfNeeded order).messages.insert message.id message).lookup id = _
  by_cases h : id = message.id
  · subst h
    rw [AList.lookup_insert, if_pos rfl]
  · rw [AList.lookup_insert_ne h, if_neg h]
    exact get_pruneIfNeeded order s id

@[simp] theorem get_store_self (order : IterOrder Entry) (message : StoredMessage)
    (s : MemoryStorage) : (s.store order message).get message.id = some message := by
  rw [get_store, if_pos rfl]

theorem get_update (id' : MessageId) (f : StoredMessage → StoredMessage) (s : MemoryStorage)
    (id : MessageId) :
    (s.update id' f).1.get id = if id = id' then (s.get id).map f else s.get id := by
  unfold update get
  cases hl : s.messages.lookup id' with
  | none =>
    by_cases h : id = id'
    · subst h; simp only [hl, Option.map_none, if_true]
    · simp only [if_neg h]
  | some msg =>
    by_cases h : id = id'
    · subst h; simp only [lookup_modify_self, if_true]
    · simp only [lookup_modify_ne f s.messages h, if_neg h]

theorem get_delete (id' : MessageId) (s : MemoryStorage) (id : MessageId) :
    (s.delete id').1.get id = if id = id' then none else s.get id := by
  unfold delete get
  cases hl : s.messages.lookup id' with
  | none =>
    by_cases h : id = id'
    · subst h; simp only [hl, if_true]
    · simp only [if_neg h]
  | some msg =>
    by_cases h : id = id'
    · subst h; simp only [AList.lookup_erase, if_true]
    · simp only [AList.lookup_erase_ne h, if_neg h]

theorem get_expireOld (clock : Clock) (ttl : Duration) (s : MemoryStorage) (id : MessageId) :
    (s.expireOld clock ttl).1.get id = (s.get id).map (expireOne clock ttl) :=
  lookup_mapVals _ _ _

/-- A call that panics has nothing to expire: as the messages were created at instants, none is older than
    the first.  So a run may go on with `expireOld` at every ttl. -/
theorem get_expireOld_of_panic {clock : Clock} {ttl : Duration} {s : MemoryStorage}
    (hpanic : s.tryExpireOld clock ttl = none)
    (hinstants : ∀ id m, s.get id = some m → earliestInstant ≤ m.createdAt) (id : MessageId) :
    (s.expireOld clock ttl).1.get id = s.get id := by
  have hcutoff : ¬ earliestInstant ≤ clock.now - ttl := by
    intro hle
    unfold tryExpireOld instantSub at hpanic
    rw [if_pos hle] at hpanic
    cases hpanic
  rw [get_expireOld]
  cases hget : s.get id with
  | none => rfl
  | some m =>
    have hyoung : ¬ m.createdAt < clock.now - ttl :=
      not_lt.mpr ((not_le.mp hcutoff).le.trans (hinstants id m hget))
    rw [Option.map_some, expireOne, overdue, decide_eq_false hyoung, Bool.and_false, if_neg Bool.false_ne_true]

theorem mem_outdated {clock : Clock} {maxAge : Duration} {s : MemoryStorage} {id : MessageId} :
    id ∈ s.outdated clock maxAge ↔
      ∃ m, s.get id = some m ∧ m.state.isTerminal = true ∧ m.updatedAt < clock.now - maxAge := by
  constructor
  · intro h
    obtain ⟨⟨k, m⟩, he, rfl⟩ := List.mem_map.mp h
    obtain ⟨hin, hb⟩ := List.mem_filter.mp he
    rw [Bool.and_eq_true, decide_eq_true_eq] at hb
    exact ⟨m, mem_entries.mp hin, hb.1, hb.2⟩
  · rintro ⟨m, hget, hterm, hold⟩
    refine List.mem_map.mpr ⟨⟨id, m⟩, List.mem_filter.mpr ⟨mem_entries.mpr hget, ?_⟩, rfl⟩
    rw [Bool.and_eq_true, decide_eq_true_eq]
    exact ⟨hterm, hold⟩

theorem get_pruneTerminal (clock : Clock) (maxAge : Duration) (s : MemoryStorage)
    (id : MessageId) :
    (s.pruneTerminal clock maxAge).1.get id =
      if id ∈ s.outdated clock maxAge then none else s.get id := by
  show (removeAll (s.outdated clock maxAge) s.messages).1.lookup id = _
  rw [removeAll_fst, lookup_eraseAll]
  rfl

/-- What a query returns is stored, under the key it is found at. -/
theorem mem_query {order : IterOrder Entry} {q : MessageQuery} {s : MemoryStorage}
    {m : StoredMessage} (h : m ∈ s.query order q) :
    ∃ id, s.get id = some m ∧ selects q m = true := by
  obtain ⟨hin, hsel⟩ := List.mem_filter.mp (List.mem_of_mem_take h)
  obtain ⟨⟨k, m'⟩, he, rfl⟩ := List.mem_map.mp hin
  exact ⟨k, mem_entries.mp (order.mem_arrange.mp he), hsel⟩

end MemoryStorage

end Smppd.Store
