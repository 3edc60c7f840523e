/-
  The two STORAGES side by side: fed the same calls, the in-memory one (`src/store/memory.rs`) and the persistent one
  (`src/store/persistent.rs`) give the same answers.

  "The same" is said of what a record keeps (`durable`): the persistent back end forgets the times and the history of a
  message, and the fraction of a second of its ttl.  A closure that is passed to `update` must not look at these; no
  transition method does (`Transition.change`).  And the in-memory back end must not be full, for then a `store` makes
  room and removes what the other one keeps.  `storages_agree` is under these conditions, for `store`, `get`, `update`,
  `delete` and `message_stats` in any order.

  Expiring and pruning are not among the calls: the two look at different clocks and states there, and listings come in
  different orders.
-/
import Smppd.Lib.Transducer
import Smppd.Store.Lifetime

namespace Smppd.Store

open Table Transducer

/-! ## Statistics -/

/-- Store statistics. -/
structure StoreStats where
  total : Nat := 0
  pending : Nat := 0
  inFlight : Nat := 0
  delivered : Nat := 0
  failed : Nat := 0
  expired : Nat := 0
  retrying : Nat := 0
  memoryBytes : UInt64 := 0
  maxMessages : UInt64 := 0
  maxMemoryBytes : UInt64 := 0

/-- The arm of the `match` for a state. -/
def StoreStats.count (stats : StoreStats) : MessageState → StoreStats
  | .pending => { stats with pending := stats.pending + 1 }
  | .inFlight => { stats with inFlight := stats.inFlight + 1 }
  | .delivered => { stats with delivered := stats.delivered + 1 }
  | .failed => { stats with failed := stats.failed + 1 }
  | .expired => { stats with expired := stats.expired + 1 }
  | .retrying => { stats with retrying := stats.retrying + 1 }

/-- `message_stats`. -/
def MemoryStorage.messageStats (s : MemoryStorage) : StoreStats :=
  (s.messages.entries.map fun e => e.2.state).foldl StoreStats.count
    { total := s.messages.entries.length
      memoryBytes := s.memoryBytes
      maxMessages := s.config.maxMessages
      maxMemoryBytes := s.config.maxMemoryMb * 1024 * 1024 }

/-- The arm of the `match` for a code. -/
def StoreStats.countCode (stats : StoreStats) (code : UInt8) : StoreStats :=
  if code = 0 then { stats with pending := stats.pending + 1 }
  else if code = 1 then { stats with inFlight := stats.inFlight + 1 }
  else if code = 2 then { stats with delivered := stats.delivered + 1 }
  else if code = 3 then { stats with failed := stats.failed + 1 }
  else if code = 4 then { stats with expired := stats.expired + 1 }
  else if code = 5 then { stats with retrying := stats.retrying + 1 }
  else stats

/-- `message_stats`. -/
def PersistentStorage.messageStats (s : PersistentStorage) : StoreStats :=
  (s.messages.iter.map fun e => e.2.state).foldl
    (fun stats code => StoreStats.countCode { stats with total := stats.total + 1 } code) {}

/-- The statistics, but for those of the memory. -/
def StoreStats.counts (stats : StoreStats) : StoreStats :=
  { stats with memoryBytes := 0, maxMessages := 0, maxMemoryBytes := 0 }

/-- The counts of a store that holds messages in these states. -/
def countsOf (states : List MessageState) : StoreStats where
  total := states.length
  pending := states.count .pending
  inFlight := states.count .inFlight
  delivered := states.count .delivered
  failed := states.count .failed
  expired := states.count .expired
  retrying := states.count .retrying

/-- The messages of all states. -/
def StoreStats.sum (stats : StoreStats) : Nat :=
  stats.pending + stats.inFlight + stats.delivered + stats.failed + stats.expired + stats.retrying

theorem sum_countsOf (states : List MessageState) : (countsOf states).sum = (countsOf states).total := by
  induction states with
  | nil => rfl
  | cons state states ih =>
    simp only [StoreStats.sum, countsOf, List.length_cons, List.count_cons] at ih ⊢
    cases state <;> simp only [beq_iff_eq, reduceCtorEq, if_true, if_false] <;> omega

theorem countsOf_perm {states states' : List MessageState} (h : states.Perm states') :
    countsOf states = countsOf states' := by
  simp only [countsOf, h.length_eq, h.count_eq]

theorem foldl_count (states : List MessageState) (stats : StoreStats) :
    states.foldl StoreStats.count stats =
      { stats with
        pending := stats.pending + states.count .pending
        inFlight := stats.inFlight + states.count .inFlight
        delivered := stats.delivered + states.count .delivered
        failed := stats.failed + states.count .failed
        expired := stats.expired + states.count .expired
        retrying := stats.retrying + states.count .retrying } := by
  induction states generalizing stats with
  | nil => rfl
  | cons state states ih =>
    rw [List.foldl_cons, ih]
    cases state <;> simp [StoreStats.count, Nat.add_comm, Nat.add_left_comm]

/-- What a code that stands for a state adds. -/
theorem countCode_code (stats : StoreStats) (state : MessageState) : stats.countCode state.code = stats.count state := by
  cases state <;> rfl

theorem foldl_countCode (states : List MessageState) (stats : StoreStats) :
    (states.map MessageState.code).foldl
        (fun stats code => StoreStats.countCode { stats with total := stats.total + 1 } code) stats =
      states.foldl StoreStats.count { stats with total := stats.total + states.length } := by
  induction states generalizing stats with
  | nil => rfl
  | cons state states ih =>
    rw [List.map_cons, List.foldl_cons, ih, List.foldl_cons, countCode_code, List.length_cons]
    refine congrArg (List.foldl StoreStats.count · states) ?_
    cases state <;> simp only [StoreStats.count, Nat.add_comm, Nat.add_left_comm]

/-- The in-memory back end counts its messages. -/
theorem MemoryStorage.messageStats_eq (s : MemoryStorage) :
    s.messageStats.counts = countsOf (s.contents.map StoredMessage.state) := by
  rw [messageStats, foldl_count, contents, List.map_map]
  simp only [StoreStats.counts, countsOf, Nat.zero_add, List.length_map]
  rfl

/-- So does the persistent one, where every code is that of a state. -/
theorem PersistentStorage.messageStats_eq {s : PersistentStorage} (h : Covered s) (clock : Clock) :
    s.messageStats.counts = countsOf ((s.contents clock).map StoredMessage.state) := by
  have hstates : (s.messages.iter.map fun e => e.2.state) =
      ((s.contents clock).map StoredMessage.state).map MessageState.code := by
    rw [contents, List.map_map, List.map_map]
    refine List.map_congr_left fun e he => ?_
    exact (h.coded e.1 e.2 (Partition.mem_iter.mp he)).symm
  rw [messageStats, hstates, foldl_countCode, foldl_count]
  simp only [StoreStats.counts, countsOf, Nat.zero_add]

/-- **The counts add up to the total**, in both back ends. -/
theorem messageStats_sum (memory : MemoryStorage) {persistent : PersistentStorage} (h : persistent.Covered) :
    memory.messageStats.sum = memory.messageStats.total ∧ persistent.messageStats.sum = persistent.messageStats.total := by
  have hsum : ∀ {stats : StoreStats} {states : List MessageState}, stats.counts = countsOf states →
      stats.counts.sum = stats.counts.total := by
    intro stats states heq
    rw [heq, sum_countsOf]
  exact ⟨hsum memory.messageStats_eq, hsum (PersistentStorage.messageStats_eq h ⟨0, 0⟩)⟩

/-! ## What a record keeps -/

/-- What the persistent back end keeps of a message. -/
def StoredMessage.durable (m : StoredMessage) : StoredMessage :=
  { PersistentStorage.kept m with ttl := fromSecs (UInt64.ofNat (m.ttl / 1000000000)).toNat }

/-- **It keeps it.** -/
theorem durable_reload (clock clock' : Clock) (m : StoredMessage) :
    (PersistentStorage.reload clock clock' m).durable = m.durable := by
  have hseconds : ∀ n : UInt64, UInt64.ofNat (fromSecs n.toNat / 1000000000) = n := by
    intro n
    rw [fromSecs, Nat.mul_div_cancel _ (by decide), UInt64.ofNat_toNat]
  unfold StoredMessage.durable PersistentStorage.kept PersistentStorage.reload persistedToStored toPersisted
  simp only [MessageState.ofCode_code, PersistentStorage.Priority.ofCode_code, hseconds]

/-- A closure that treats messages alike of which the same is kept. -/
def Faithful (f : StoredMessage → StoredMessage) : Prop :=
  ∀ m m', m.durable = m'.durable → (f m).durable = (f m').durable

/-- What becomes of a message depends on what is kept of it. -/
theorem Faithful.of_image {f : StoredMessage → StoredMessage} (image : StoredMessage → StoredMessage)
    (himage : ∀ m, (f m).durable = image m.durable) : Faithful f := by
  intro m m' hsame
  rw [himage, himage, hsame]

/-- A closure for `update`. -/
structure Change extends PersistentStorage.Keeping where
  faithful : Faithful apply

/-- One after the other. -/
def Change.andThen (first second : Change) : Change where
  apply m := second.apply (first.apply m)
  keepsId m := (second.keepsId _).trans (first.keepsId m)
  faithful m m' hsame := second.faithful _ _ (first.faithful m m' hsame)

/-- The transition methods, and the fields that are written by themselves. -/
inductive Transition where
  | markInFlight (cluster endpoint : String)
  | recordResponse (commandStatus : UInt32) (messageId : Option String) (latencyUs : UInt64)
  | markDelivered (smscMessageId : String)
  | markFailed (errorCode : Option UInt32) (error : String)
  | markRetry (delay : Duration) (errorCode : Option UInt32) (error : String)
  | markExpired
  | resetToPending
  | recordRouteDecision (decisionId : DecisionId) (route cluster : String) (alternatives : List String)
  | recordLbDecision (decisionId : DecisionId) (endpoint cluster : String) (alternatives : List String)
  | recordFallback (decisionId : DecisionId) (fromCluster toCluster : String) (remaining : List String)
  | recordDeliveryReceipt (state : String) (errorCode : Option UInt32)
  | putSmscMessageId (id : String)
  | putState (state : MessageState)
  | putLastError (errorCode : Option UInt32) (error : Option String)

/-- What it does to a message. -/
def Transition.apply (clock : Clock) (m : StoredMessage) : Transition → StoredMessage
  | .markInFlight cluster endpoint => m.markInFlight clock cluster endpoint
  | .recordResponse commandStatus messageId latencyUs => m.recordResponse clock commandStatus messageId latencyUs
  | .markDelivered smscMessageId => m.markDelivered clock smscMessageId
  | .markFailed errorCode error => m.markFailed clock errorCode error
  | .markRetry delay errorCode error => m.markRetry clock delay errorCode error
  | .markExpired => m.markExpired clock
  | .resetToPending => m.resetToPending clock
  | .recordRouteDecision decisionId route cluster alternatives =>
    m.recordRouteDecision clock decisionId route cluster alternatives
  | .recordLbDecision decisionId endpoint cluster alternatives =>
    m.recordLbDecision clock decisionId endpoint cluster alternatives
  | .recordFallback decisionId fromCluster toCluster remaining =>
    m.recordFallback clock decisionId fromCluster toCluster remaining
  | .recordDeliveryReceipt state errorCode => m.recordDeliveryReceipt clock state errorCode
  | .putSmscMessageId id => { m with smscMessageId := some id }
  | .putState state => { m with state }
  | .putLastError errorCode error => { m with lastErrorCode := errorCode, lastError := error }

theorem Transition.keepsId (clock : Clock) (transition : Transition) (m : StoredMessage) :
    (transition.apply clock m).id = m.id := by
  cases transition with
  | resetToPending =>
    show (m.resetToPending clock).id = m.id
    unfold StoredMessage.resetToPending
    split <;> rfl
  | _ => rfl

/-- **No transition looks at what is not kept.** -/
theorem Transition.faithful (clock : Clock) (transition : Transition) : Faithful fun m => transition.apply clock m := by
  cases transition with
  | markInFlight cluster endpoint =>
    exact .of_image (fun d =>
      { d with state := .inFlight, cluster := some cluster, endpoint := some endpoint, attempts := d.attempts + 1 })
      fun _ => rfl
  | recordResponse commandStatus messageId latencyUs => exact .of_image id fun _ => rfl
  | markDelivered smscMessageId =>
    exact .of_image (fun d =>
      { d with state := .delivered, smscMessageId := some smscMessageId, lastError := none, lastErrorCode := none })
      fun _ => rfl
  | markFailed errorCode error =>
    exact .of_image (fun d => { d with state := .failed, lastErrorCode := errorCode, lastError := some error })
      fun _ => rfl
  | markRetry delay errorCode error =>
    exact .of_image (fun d => { d with state := .retrying, lastErrorCode := errorCode, lastError := some error })
      fun _ => rfl
  | markExpired => exact .of_image (fun d => { d with state := .expired }) fun _ => rfl
  | resetToPending =>
    refine .of_image (fun d => if d.state = .retrying then { d with state := .pending } else d) fun m => ?_
    show (m.resetToPending clock).durable = if m.state = .retrying then _ else _
    unfold StoredMessage.resetToPending
    split <;> rfl
  | recordRouteDecision decisionId route cluster alternatives =>
    exact .of_image (fun d => { d with route := some route, cluster := some cluster }) fun _ => rfl
  | recordLbDecision decisionId endpoint cluster alternatives =>
    exact .of_image (fun d => { d with endpoint := some endpoint }) fun _ => rfl
  | recordFallback decisionId fromCluster toCluster remaining =>
    exact .of_image (fun d => { d with cluster := some toCluster }) fun _ => rfl
  | recordDeliveryReceipt state errorCode => exact .of_image id fun _ => rfl
  | putSmscMessageId id => exact .of_image (fun d => { d with smscMessageId := some id }) fun _ => rfl
  | putState state => exact .of_image (fun d => { d with state }) fun _ => rfl
  | putLastError errorCode error =>
    exact .of_image (fun d => { d with lastErrorCode := errorCode, lastError := error }) fun _ => rfl

/-- As a closure. -/
def Transition.change (clock : Clock) (transition : Transition) : Change where
  apply m := transition.apply clock m
  keepsId := transition.keepsId clock
  faithful := transition.faithful clock

/-! ## Calls -/

/-- A call on a storage. -/
inductive StorageCall where
  | store (message : StoredMessage)
  | get (id : MessageId)
  | update (id : MessageId) (change : Change)
  | delete (id : MessageId)
  | messageStats

/-- A call, with the time of it and the order in which a hash map is walked. -/
structure Called where
  clock : Clock
  order : IterOrder Entry
  call : StorageCall

/-- What a storage answers. -/
inductive Answer where
  | stored (id : MessageId)
  | got (message : Option StoredMessage)
  | found (found : Bool)
  | stats (stats : StoreStats)

/-- What can be said of an answer in both back ends. -/
def Answer.durable : Answer → Answer
  | .got message => .got (message.map StoredMessage.durable)
  | .stats counted => .stats counted.counts
  | answer => answer

/-- A call on the in-memory back end. -/
def MemoryStorage.called (s : MemoryStorage) (c : Called) : Answer × MemoryStorage :=
  match c.call with
  | .store message => (.stored message.id, s.store c.order message)
  | .get id => (.got (s.get id), s)
  | .update id change => (.found (s.update id change.apply).2, (s.update id change.apply).1)
  | .delete id => (.found (s.delete id).2, (s.delete id).1)
  | .messageStats => (.stats s.messageStats, s)

/-- A call on the persistent back end. -/
def PersistentStorage.called (s : PersistentStorage) (c : Called) : Answer × PersistentStorage :=
  match c.call with
  | .store message => (.stored message.id, s.store c.clock message)
  | .get id => (.got (s.get c.clock id), s)
  | .update id change => (.found (s.update c.clock id change.apply).2, (s.update c.clock id change.apply).1)
  | .delete id => (.found (s.delete c.clock id).2, (s.delete c.clock id).1)
  | .messageStats => (.stats s.messageStats, s)

/-- The call stores something where there is no room. -/
def MemoryStorage.overflows (s : MemoryStorage) (c : Called) : Bool :=
  match c.call with
  | .store _ => s.atLimit
  | _ => false

/-- There is room for what is stored. -/
def Roomy (s : MemoryStorage) (c : Called) : Prop := s.overflows c = false

instance (s : MemoryStorage) (c : Called) : Decidable (Roomy s c) := inferInstanceAs (Decidable (_ = false))

/-! ## One call -/

/-- **The relation**: the same is kept of the message under each id. -/
structure Alike (memory : MemoryStorage) (persistent : PersistentStorage) : Prop where
  keyed : memory.Keyed
  covered : persistent.Covered
  same : ∀ id clock, (memory.get id).map StoredMessage.durable = (persistent.get clock id).map StoredMessage.durable

section Calls

variable {memory : MemoryStorage} {persistent : PersistentStorage}

theorem alike_empty (config : MemoryStoreConfig) : Alike (.withConfig config) .empty :=
  ⟨fun _ _ h => (by cases h), PersistentStorage.covered_empty, fun _ _ => rfl⟩

theorem Alike.store (h : Alike memory persistent) (order : IterOrder Entry) (clock : Clock) {message : StoredMessage}
    (hroom : memory.atLimit = false) : Alike (memory.store order message) (persistent.store clock message) := by
  refine ⟨MemoryStorage.keyed_store h.keyed order message, (h.covered.others message.id).persist, fun id clock' => ?_⟩
  have hget : (memory.store order message).get id = if id = message.id then some message else memory.get id := by
    rw [MemoryStorage.get_store, hroom]
    simp only [Bool.false_eq_true, false_and, if_false]
  have hget' := PersistentStorage.get_persist clock clock' message persistent id
  change (persistent.store clock message).get clock' id = _ at hget'
  rw [hget, hget']
  by_cases hid : id = message.id
  · rw [if_pos hid, if_pos hid, Option.map_some, Option.map_some, durable_reload]
  · rw [if_neg hid, if_neg hid]
    exact h.same id clock'

theorem Alike.isSome (h : Alike memory persistent) (id : MessageId) (clock : Clock) :
    (memory.get id).isSome = (persistent.get clock id).isSome := by
  have hsame := congrArg Option.isSome (h.same id clock)
  rwa [Option.isSome_map, Option.isSome_map] at hsame

theorem MemoryStorage.update_found (s : MemoryStorage) (id : MessageId) (f : StoredMessage → StoredMessage) :
    (s.update id f).2 = (s.get id).isSome := by
  unfold update get
  cases s.messages.lookup id with
  | none => rfl
  | some m => rfl

theorem PersistentStorage.update_found (s : PersistentStorage) (clock : Clock) (id : MessageId)
    (f : StoredMessage → StoredMessage) : (s.update clock id f).2 = (s.get clock id).isSome := by
  unfold update get
  cases s.loadMessage clock id with
  | none => rfl
  | some m => rfl

theorem MemoryStorage.delete_found (s : MemoryStorage) (id : MessageId) : (s.delete id).2 = (s.get id).isSome := by
  unfold delete get
  cases s.messages.lookup id with
  | none => rfl
  | some m => rfl

theorem PersistentStorage.delete_found (s : PersistentStorage) (clock : Clock) (id : MessageId) :
    (s.delete clock id).2 = (s.get clock id).isSome := by
  unfold delete get
  cases s.loadMessage clock id with
  | none => rfl
  | some m => rfl

theorem Alike.update (h : Alike memory persistent) (clock : Clock) (id : MessageId) (change : Change) :
    Alike (memory.update id change.apply).1 (persistent.update clock id change.apply).1 := by
  refine ⟨MemoryStorage.keyed_update h.keyed id change.keepsId,
    PersistentStorage.covered_update h.covered clock id change.toKeeping, fun id' clock' => ?_⟩
  rw [MemoryStorage.get_update, h.covered.get_update clock clock' id change.toKeeping id']
  by_cases hid : id' = id
  · rw [if_pos hid, if_pos hid, hid]
    have hsame := h.same id clock
    cases hmemory : memory.get id with
    | none =>
      rw [hmemory] at hsame
      rw [Option.map_eq_none_iff.mp hsame.symm]
      rfl
    | some m =>
      rw [hmemory] at hsame
      obtain ⟨m', hpersistent, hdurable⟩ := Option.map_eq_some_iff.mp hsame.symm
      rw [hpersistent, Option.map_some, Option.map_some, Option.map_some, Option.map_some, durable_reload,
        change.faithful m m' hdurable.symm]
  · rw [if_neg hid, if_neg hid]
    exact h.same id' clock'

theorem PersistentStorage.get_delete {s : PersistentStorage} (clock clock' : Clock) (id id' : MessageId) :
    (s.delete clock id).1.get clock' id' = if id' = id then none else s.get clock' id' := by
  unfold delete get
  cases hload : s.loadMessage clock id with
  | none =>
    by_cases hid : id' = id
    · rw [if_pos hid, hid]
      exact Option.map_eq_none_iff.mpr (Option.map_eq_none_iff.mp hload)
    · rw [if_neg hid]
  | some m =>
    show ((s.messages.erase (msgKey id)).lookup (msgKey id')).map _ = _
    by_cases hid : id' = id
    · rw [if_pos hid, hid, AList.lookup_erase]
      rfl
    · rw [if_neg hid, AList.lookup_erase_ne fun hkey => hid (msgKey_injective hkey)]
      rfl

theorem Alike.delete (h : Alike memory persistent) (clock : Clock) (id : MessageId) :
    Alike (memory.delete id).1 (persistent.delete clock id).1 := by
  refine ⟨fun id' m hget => ?_, PersistentStorage.covered_delete h.covered clock id, fun id' clock' => ?_⟩
  · rw [MemoryStorage.get_delete] at hget
    split at hget
    · cases hget
    · exact h.keyed id' m hget
  · rw [MemoryStorage.get_delete, PersistentStorage.get_delete]
    by_cases hid : id' = id
    · rw [if_pos hid, if_pos hid]
    · rw [if_neg hid, if_neg hid]
      exact h.same id' clock'

theorem nodup_map_durable {messages : List StoredMessage} (h : (messages.map StoredMessage.id).Nodup) :
    (messages.map StoredMessage.durable).Nodup := by
  have hids : (messages.map StoredMessage.durable).map StoredMessage.id = messages.map StoredMessage.id := by
    rw [List.map_map]
    rfl
  rw [← hids] at h
  exact h.of_map

/-- They hold the same messages. -/
theorem Alike.perm (h : Alike memory persistent) (clock : Clock) :
    (memory.contents.map StoredMessage.durable).Perm ((persistent.contents clock).map StoredMessage.durable) := by
  refine (List.perm_ext_iff_of_nodup (nodup_map_durable h.keyed.contents_ids_nodup)
    (nodup_map_durable (h.covered.contents_inKeyOrder clock).ids_nodup)).mpr fun d => ?_
  rw [List.mem_map, List.mem_map]
  constructor
  · rintro ⟨m, hm, rfl⟩
    obtain ⟨id, hget⟩ := MemoryStorage.mem_contents.mp hm
    have hsame := h.same id clock
    rw [hget] at hsame
    obtain ⟨m', hget', hdurable⟩ := Option.map_eq_some_iff.mp hsame.symm
    exact ⟨m', (h.covered.get_eq_some_iff.mp hget').1, hdurable⟩
  · rintro ⟨m', hm', rfl⟩
    have hget' := h.covered.get_eq_some_iff.mpr ⟨hm', rfl⟩
    have hsame := h.same m'.id clock
    rw [hget'] at hsame
    obtain ⟨m, hget, hdurable⟩ := Option.map_eq_some_iff.mp hsame
    exact ⟨m, MemoryStorage.mem_contents.mpr ⟨_, hget⟩, hdurable⟩

theorem Alike.messageStats (h : Alike memory persistent) :
    memory.messageStats.counts = persistent.messageStats.counts := by
  have hstates : ∀ messages : List StoredMessage,
      messages.map StoredMessage.state = (messages.map StoredMessage.durable).map StoredMessage.state := by
    intro messages
    rw [List.map_map]
    rfl
  rw [memory.messageStats_eq, PersistentStorage.messageStats_eq h.covered ⟨0, 0⟩,
    hstates memory.contents, hstates (persistent.contents ⟨0, 0⟩)]
  exact countsOf_perm ((h.perm ⟨0, 0⟩).map _)

/-- **One call**: alike storages give the same answer, and stay alike. -/
theorem alike_called (h : Alike memory persistent) (c : Called) (hroom : Roomy memory c) :
    (memory.called c).1.durable = (persistent.called c).1.durable ∧ Alike (memory.called c).2 (persistent.called c).2 := by
  obtain ⟨clock, order, call⟩ := c
  cases call with
  | store message => exact ⟨rfl, h.store order clock hroom⟩
  | get id => exact ⟨congrArg Answer.got (h.same id clock), h⟩
  | update id change =>
    refine ⟨congrArg Answer.found ?_, h.update clock id change⟩
    rw [MemoryStorage.update_found, PersistentStorage.update_found, h.isSome id clock]
  | delete id =>
    refine ⟨congrArg Answer.found ?_, h.delete clock id⟩
    rw [MemoryStorage.delete_found, PersistentStorage.delete_found, h.isSome id clock]
  | messageStats => exact ⟨congrArg Answer.stats h.messageStats, h⟩

end Calls

/-! ## Any number of calls -/

/-- **The two back ends agree** on every sequence of calls, as long as the in-memory one is not full when something is
    stored: they answer alike, and in the end the same is found under every id. -/
theorem storages_agree (config : MemoryStoreConfig) (calls : List Called)
    (hroom : Along (fun s c => (MemoryStorage.called s c).2) Roomy (.withConfig config) calls) :
    (play MemoryStorage.called (.withConfig config) calls).1.map Answer.durable =
        (play PersistentStorage.called .empty calls).1.map Answer.durable ∧
      ∀ id clock, ((play MemoryStorage.called (.withConfig config) calls).2.get id).map StoredMessage.durable =
        ((play PersistentStorage.called .empty calls).2.get clock id).map StoredMessage.durable := by
  have hstep : ∀ memory persistent observed c, Alike memory persistent ∧ observed = memory → Roomy observed c →
      (MemoryStorage.called memory c).1.durable = (PersistentStorage.called persistent c).1.durable ∧
        Alike (memory.called c).2 (persistent.called c).2 ∧ (MemoryStorage.called observed c).2 = (memory.called c).2 := by
    rintro memory persistent _ c ⟨halike, rfl⟩ hroom
    obtain ⟨hanswer, hnext⟩ := alike_called halike c hroom
    exact ⟨hanswer, hnext, rfl⟩
  obtain ⟨hanswers, hend, -⟩ := play_map_eq_of_along hstep ⟨alike_empty config, rfl⟩ hroom
  exact ⟨hanswers, hend.same⟩

/-- Two messages are stored; the first is sent, and the second is deleted. -/
def sentAndDeleted : List Called :=
  let first := StoredMessage.sample 1
  let second := StoredMessage.sample 2
  let sent := (Transition.markInFlight "upstream" "10.0.0.1:2775").change ⟨1000, 2000⟩
  [.store first, .store second, .update first.id sent, .delete second.id, .get first.id, .get second.id, .messageStats].map
    fun call => ⟨⟨1000, 2000⟩, .listed, call⟩

theorem storages_agree_sentAndDeleted :
    (play MemoryStorage.called (.withConfig ⟨10, 1, 10⟩) sentAndDeleted).1.map Answer.durable =
        (play PersistentStorage.called .empty sentAndDeleted).1.map Answer.durable ∧
      ∀ id clock, ((play MemoryStorage.called (.withConfig ⟨10, 1, 10⟩) sentAndDeleted).2.get id).map
          StoredMessage.durable =
        ((play PersistentStorage.called .empty sentAndDeleted).2.get clock id).map StoredMessage.durable :=
  storages_agree ⟨10, 1, 10⟩ sentAndDeleted (by decide +kernel)

end Smppd.Store
