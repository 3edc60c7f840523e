/-
  `PersistentStorage` (`src/store/persistent.rs`), the message part: a partition `messages` of
  records and a partition `messages_by_state` that indexes them by hand, kept in step by the
  operations themselves.

  A fjall PARTITION is an ordered map from byte strings to byte strings whose operations succeed and
  whose iteration reads a snapshot.  Keys here are built by `format!` from ASCII text, so a key is a
  list of characters.  `serde_json` decodes what it encoded, so the value of a record is the
  `PersistedMessage` itself; the value of an index entry is the eight big-endian bytes of the id, as
  in the source.

  A stored record is a strict subset of a message: `persisted_to_stored` invents a fresh `created_at`
  and `updated_at`, an empty event history and no `retry_at`.
-/
import Mathlib.Data.Char
import Mathlib.Data.List.Lex
import Smppd.Lib.Table
import Smppd.Store.Types

namespace Smppd.Store

open Table

/-! ## Partitions and keys -/

/-- A key: ASCII text, one character per byte. -/
abbrev Key := List Char

/-- A partition of the keyspace. -/
abbrev Partition (V : Type) := Tbl Key V

/-- Iteration, in key order, over a snapshot. -/
def Partition.iter {V : Type} (p : Partition V) : List (Sigma fun _ : Key => V) :=
  p.entries.mergeSort fun a b => decide (a.1 ≤ b.1)

/-- The entries whose key starts with `pre`, in key order. -/
def Partition.startingWith {V : Type} (pre : Key) (p : Partition V) :
    List (Sigma fun _ : Key => V) :=
  p.iter.filter fun e => pre.isPrefixOf e.1

theorem Partition.mem_iter {V : Type} {p : Partition V} {e : Sigma fun _ : Key => V} :
    e ∈ p.iter ↔ p.lookup e.1 = some e.2 :=
  List.mem_mergeSort.trans mem_entries

theorem Partition.iter_keys_nodup {V : Type} (p : Partition V) :
    (p.iter.map Sigma.fst).Nodup :=
  ((List.mergeSort_perm p.entries _).map Sigma.fst).nodup_iff.mpr p.nodupKeys

/-- Decimal digits, as `{}` prints them. -/
def digits (n : Nat) : Key := Nat.toDigits 10 n

/-- `format!("msg_{}", id)`. -/
def msgKey (id : MessageId) : Key := ['m', 's', 'g', '_'] ++ digits id.val.toNat

/-- `format!("state_{}_", state)`. -/
def statePrefix (code : UInt8) : Key :=
  ['s', 't', 'a', 't', 'e', '_'] ++ digits code.toNat ++ ['_']

/-- `format!("state_{}_{}", state, id)`. -/
def stateKey (code : UInt8) (id : MessageId) : Key := statePrefix code ++ digits id.val.toNat

theorem digits_injective {m n : Nat} (h : digits m = digits n) : m = n := by
  have hm := Nat.ofDigitChars_ten_toDigits (n := m)
  have hn := Nat.ofDigitChars_ten_toDigits (n := n)
  unfold digits at h
  rw [h] at hm
  exact hm.symm.trans hn

theorem MessageId.ext_toNat {a b : MessageId} (h : a.val.toNat = b.val.toNat) : a = b := by
  obtain ⟨a⟩ := a
  obtain ⟨b⟩ := b
  exact congrArg MessageId.mk (UInt64.toNat_inj.mp h)

theorem msgKey_injective {a b : MessageId} (h : msgKey a = msgKey b) : a = b :=
  MessageId.ext_toNat (digits_injective (List.append_cancel_left h))

/-- A text without an underscore ends where the first underscore stands. -/
theorem underscore_inj {x y u v : Key} (hx : '_' ∉ x) (hy : '_' ∉ y) (h : x ++ '_' :: u = y ++ '_' :: v) :
    x = y ∧ u = v := by
  have htake : ∀ {z : Key} (w : Key), '_' ∉ z → (z ++ '_' :: w).takeWhile (· != '_') = z := by
    intro z w hz
    have hfree : ∀ c ∈ z, (c != '_') = true := fun c hc => bne_iff_ne.mpr fun heq => hz (heq ▸ hc)
    rw [List.takeWhile_append_of_pos hfree, List.takeWhile_cons_of_neg (by decide), List.append_nil]
  have hxy : x = y := by rw [← htake u hx, h, htake v hy]
  rw [hxy] at h
  exact ⟨hxy, (List.cons.inj (List.append_cancel_left h)).2⟩

/-- Digits end where the first underscore stands. -/
theorem digits_underscore {m n : Nat} {x y : Key}
    (h : digits m ++ '_' :: x = digits n ++ '_' :: y) : m = n ∧ x = y := by
  obtain ⟨hdigits, htail⟩ :=
    underscore_inj Nat.underscore_not_in_toDigits Nat.underscore_not_in_toDigits h
  exact ⟨digits_injective hdigits, htail⟩

theorem stateKey_eq (code : UInt8) (id : MessageId) :
    stateKey code id = ['s', 't', 'a', 't', 'e', '_'] ++
      (digits code.toNat ++ '_' :: digits id.val.toNat) := by
  simp only [stateKey, statePrefix, List.append_assoc, List.cons_append, List.nil_append]

/-- An index key determines both the state code and the id in it. -/
theorem stateKey_injective {c c' : UInt8} {id id' : MessageId}
    (h : stateKey c id = stateKey c' id') : c = c' ∧ id = id' := by
  rw [stateKey_eq, stateKey_eq] at h
  obtain ⟨hc, hid⟩ := digits_underscore (List.append_cancel_left h)
  exact ⟨UInt8.toNat_inj.mp hc, MessageId.ext_toNat (digits_injective hid)⟩

/-- The keys under a state's prefix are the keys of that state. -/
theorem statePrefix_isPrefixOf {c c' : UInt8} {id : MessageId} :
    (statePrefix c).isPrefixOf (stateKey c' id) = true ↔ c = c' := by
  rw [List.isPrefixOf_iff_prefix]
  constructor
  · rintro ⟨t, ht⟩
    rw [stateKey_eq, statePrefix, List.append_assoc, List.append_assoc, List.singleton_append] at ht
    exact UInt8.toNat_inj.mp (digits_underscore (List.append_cancel_left ht)).1
  · rintro rfl
    exact ⟨_, rfl⟩

/-! ## Big-endian ids -/

/-- `u64::to_be_bytes`. -/
def toBeBytes (n : UInt64) : List UInt8 :=
  [7, 6, 5, 4, 3, 2, 1, 0].map fun i => UInt8.ofNat (n.toNat / 256 ^ i)

/-- `u64::from_be_bytes`. -/
def fromBeBytes (bytes : List UInt8) : UInt64 :=
  UInt64.ofNat (bytes.foldl (fun acc b => acc * 256 + b.toNat) 0)

@[simp] theorem length_toBeBytes (n : UInt64) : (toBeBytes n).length = 8 := rfl

/-- What the bytes before give, and one byte more. -/
theorem append_byte (n i : Nat) :
    n / 256 ^ (i + 1) * 256 + (UInt8.ofNat (n / 256 ^ i)).toNat = n / 256 ^ i := by
  rw [UInt8.toNat_ofNat', Nat.pow_succ, ← Nat.div_div_eq_div_mul]
  exact Nat.div_add_mod' _ 256

@[simp] theorem fromBeBytes_toBeBytes (n : UInt64) : fromBeBytes (toBeBytes n) = n := by
  have hfirst := append_byte n.toNat 7
  rw [Nat.div_eq_of_lt (show n.toNat < 256 ^ (7 + 1) from n.toNat_lt)] at hfirst
  have hsum : (toBeBytes n).foldl (fun acc b => acc * 256 + b.toNat) 0 = n.toNat := by
    rw [toBeBytes, List.foldl_map]
    simp only [List.foldl_cons, List.foldl_nil]
    rw [hfirst, append_byte _ 6, append_byte _ 5, append_byte _ 4, append_byte _ 3,
      append_byte _ 2, append_byte _ 1, append_byte _ 0, Nat.pow_zero, Nat.div_one]
  rw [fromBeBytes, hsum, UInt64.ofNat_toNat]

/-! ## Records -/

/-- What is written to disk for a message. -/
structure PersistedMessage where
  id : UInt64
  state : UInt8
  priority : UInt8
  source : String
  destination : String
  shortMessage : List UInt8
  dataCoding : UInt8
  esmClass : UInt8
  registeredDelivery : UInt8
  serviceType : Option String
  senderId : Option String
  systemId : String
  sequenceNumber : UInt32
  smscMessageId : Option String
  route : Option String
  cluster : Option String
  endpoint : Option String
  attempts : UInt32
  maxAttempts : UInt32
  ttlSecs : UInt64
  createdAtEpochMs : UInt64
  updatedAtEpochMs : UInt64
  retryAtEpochMs : Option UInt64
  lastErrorCode : Option UInt32
  lastError : Option String

/-- The decoding `match p.state { 0 => .. }`, unknown codes falling back to `Pending`. -/
def MessageState.ofCode (c : UInt8) : MessageState :=
  if c = 0 then .pending
  else if c = 1 then .inFlight
  else if c = 2 then .delivered
  else if c = 3 then .failed
  else if c = 4 then .expired
  else if c = 5 then .retrying
  else .pending

@[simp] theorem MessageState.ofCode_code (s : MessageState) : ofCode s.code = s := by
  cases s <;> rfl

theorem MessageState.code_injective {s t : MessageState} (h : s.code = t.code) : s = t := by
  rw [← ofCode_code s, h, ofCode_code]

/-- The decoding `match p.priority { 0 => .. }`. -/
def Priority.ofCode (c : UInt8) : Priority :=
  if c = 0 then .low
  else if c = 1 then .normal
  else if c = 2 then .high
  else if c = 3 then .critical
  else .normal

/-- Milliseconds since `UNIX_EPOCH` as a `u64`, zero for times before it. -/
def epochMs (t : SystemTime) : UInt64 := UInt64.ofNat (asMillis t.toNat)

/-- The record `persist_message` builds. -/
def toPersisted (clock : Clock) (m : StoredMessage) : PersistedMessage where
  id := m.id.val
  state := m.state.code
  priority := m.priority.code
  source := m.source
  destination := m.destination
  shortMessage := m.shortMessage
  dataCoding := m.dataCoding
  esmClass := m.esmClass
  registeredDelivery := m.registeredDelivery
  serviceType := m.serviceType
  senderId := m.senderId
  systemId := m.systemId
  sequenceNumber := m.sequenceNumber
  smscMessageId := m.smscMessageId
  route := m.route
  cluster := m.cluster
  endpoint := m.endpoint
  attempts := m.attempts
  maxAttempts := m.maxAttempts
  ttlSecs := UInt64.ofNat (m.ttl / 1000000000)
  createdAtEpochMs := epochMs m.createdTime
  updatedAtEpochMs := epochMs clock.wall
  retryAtEpochMs := none
  lastErrorCode := m.lastErrorCode
  lastError := m.lastError

/-- `persisted_to_stored`. -/
def persistedToStored (clock : Clock) (p : PersistedMessage) : StoredMessage where
  id := ⟨p.id⟩
  state := .ofCode p.state
  priority := .ofCode p.priority
  source := p.source
  destination := p.destination
  shortMessage := p.shortMessage
  dataCoding := p.dataCoding
  esmClass := p.esmClass
  registeredDelivery := p.registeredDelivery
  serviceType := p.serviceType
  senderId := p.senderId
  systemId := p.systemId
  sequenceNumber := p.sequenceNumber
  smscMessageId := p.smscMessageId
  route := p.route
  cluster := p.cluster
  endpoint := p.endpoint
  attempts := p.attempts
  maxAttempts := p.maxAttempts
  ttl := fromSecs p.ttlSecs.toNat
  createdAt := clock.now
  createdTime := fromMillis p.createdAtEpochMs.toNat
  updatedAt := clock.now
  retryAt := p.retryAtEpochMs.map fun _ => clock.now
  lastErrorCode := p.lastErrorCode
  lastError := p.lastError
  events := []

/-! ## The storage -/

/-- Persistent storage: the two partitions of the message operations. -/
structure PersistentStorage where
  messages : Partition PersistedMessage
  messagesByState : Partition (List UInt8)

namespace PersistentStorage

/-- An empty keyspace. -/
def empty : PersistentStorage := ⟨∅, ∅⟩

/-- `self.messages.insert(key, value)` of `persist_message`. -/
def insertRecord (p : PersistedMessage) (s : PersistentStorage) : PersistentStorage :=
  { s with messages := s.messages.insert (msgKey ⟨p.id⟩) p }

/-- `self.messages_by_state.insert(state_key, id)` of `persist_message`. -/
def insertStateIndex (p : PersistedMessage) (s : PersistentStorage) : PersistentStorage :=
  { s with messagesByState := s.messagesByState.insert (stateKey p.state ⟨p.id⟩) (toBeBytes p.id) }

/-- `persist_message`. -/
def persistMessage (clock : Clock) (m : StoredMessage) (s : PersistentStorage) :
    PersistentStorage :=
  (s.insertRecord (toPersisted clock m)).insertStateIndex (toPersisted clock m)

/-- The records after a message has been persisted. -/
theorem lookup_persist_eq_some {clock : Clock} {m : StoredMessage} {s : PersistentStorage} {key : Key}
    {p : PersistedMessage} :
    (s.persistMessage clock m).messages.lookup key = some p ↔
      (key = msgKey m.id ∧ p = toPersisted clock m) ∨ (key ≠ msgKey m.id ∧ s.messages.lookup key = some p) :=
  lookup_insert_eq_some

/-- `remove_state_index`. -/
def removeStateIndex (old : MessageState) (id : MessageId) (s : PersistentStorage) :
    PersistentStorage :=
  { s with messagesByState := s.messagesByState.erase (stateKey old.code id) }

/-- `self.messages.remove(key)`. -/
def removeRecord (key : Key) (s : PersistentStorage) : PersistentStorage :=
  { s with messages := s.messages.erase key }

/-- `load_message`. -/
def loadMessage (clock : Clock) (id : MessageId) (s : PersistentStorage) : Option StoredMessage :=
  (s.messages.lookup (msgKey id)).map (persistedToStored clock)

/-- The body of the loop of `get_by_state` on one index entry. -/
def indexed (clock : Clock) (s : PersistentStorage) (value : List UInt8) : Option StoredMessage :=
  if value.length = 8 then s.loadMessage clock ⟨fromBeBytes value⟩ else none

/-- The loop of `get_by_state`, which stops once `results` has reached the limit. -/
def collect (clock : Clock) (limit : Nat) (s : PersistentStorage) :
    List (Sigma fun _ : Key => List UInt8) → List StoredMessage → List StoredMessage
  | [], results => results
  | e :: rest, results =>
    if limit ≤ results.length then results
    else s.collect clock limit rest (results ++ (s.indexed clock e.2).toList)

/-- `get_by_state`. -/
def getByState (clock : Clock) (state : MessageState) (limit : Nat) (s : PersistentStorage) :
    List StoredMessage :=
  s.collect clock limit (s.messagesByState.startingWith (statePrefix state.code)) []

/-- `store`. -/
def store (clock : Clock) (m : StoredMessage) (s : PersistentStorage) : PersistentStorage :=
  s.persistMessage clock m

/-- `get`. -/
def get (clock : Clock) (id : MessageId) (s : PersistentStorage) : Option StoredMessage :=
  s.loadMessage clock id

/-- `update`; the flag says whether the message was found. -/
def update (clock : Clock) (id : MessageId) (f : StoredMessage → StoredMessage)
    (s : PersistentStorage) : PersistentStorage × Bool :=
  match s.loadMessage clock id with
  | some msg =>
    let s' := if msg.state ≠ (f msg).state then s.removeStateIndex msg.state id else s
    (s'.persistMessage clock (f msg), true)
  | none => (s, false)

/-- `delete`. -/
def delete (clock : Clock) (id : MessageId) (s : PersistentStorage) : PersistentStorage × Bool :=
  match s.loadMessage clock id with
  | some msg => ((s.removeStateIndex msg.state id).removeRecord (msgKey id), true)
  | none => (s, false)

/-- The filter of `query` when no state is asked for. -/
def selects (q : MessageQuery) (m : StoredMessage) : Bool :=
  q.systemId.all (fun sys => m.systemId = sys)
    && q.destinationPrefix.all (fun p => p.toList.isPrefixOf m.destination.toList)
    && q.cluster.all (fun c => m.cluster = some c)

/-- `query`.  A query by state looks at nothing else. -/
def query (clock : Clock) (q : MessageQuery) (s : PersistentStorage) : List StoredMessage :=
  match q.state with
  | some state => s.getByState clock state (q.limit.getD 1000)
  | none =>
    ((s.messages.iter.map fun e => persistedToStored clock e.2).filter (selects q)).take
      (q.limit.getD 1000)

/-- `get_pending`. -/
def getPending (clock : Clock) (limit : Nat) (s : PersistentStorage) : List StoredMessage :=
  s.getByState clock .pending limit

/-- `get_ready_for_retry`. -/
def getReadyForRetry (clock : Clock) (s : PersistentStorage) : List StoredMessage :=
  s.getByState clock .retrying 1000

/-- `usize::MAX`. -/
def usizeMax : Nat := 2 ^ 64 - 1

/-- `get_recoverable_messages`. -/
def getRecoverableMessages (clock : Clock) (s : PersistentStorage) : List StoredMessage :=
  s.getByState clock .pending usizeMax ++ s.getByState clock .inFlight usizeMax ++
    s.getByState clock .retrying usizeMax

/-- Whether `expire_old` expires the record. -/
def overdue (clock : Clock) (ttl : Duration) (p : PersistedMessage) : Bool :=
  p.state = MessageState.pending.code
    && (UInt64.ofNat (asMillis ttl)).toNat
      < (epochMs clock.wall).toNat - p.createdAtEpochMs.toNat

/-- The loop body of `expire_old`. -/
def expireRecord (clock : Clock) (ttl : Duration) (s : PersistentStorage) (p : PersistedMessage) :
    PersistentStorage :=
  if overdue clock ttl p then
    (s.removeStateIndex .pending ⟨p.id⟩).persistMessage clock
      ((persistedToStored clock p).markExpired clock)
  else s

/-- `expire_old`, with the number of messages it expired. -/
def expireOld (clock : Clock) (ttl : Duration) (s : PersistentStorage) :
    PersistentStorage × Nat :=
  (s.messages.iter.foldl (fun s e => s.expireRecord clock ttl e.2) s,
    s.messages.iter.countP fun e => overdue clock ttl e.2)

/-- What `prune_terminal` puts on its list: the state, when it is terminal and old enough. -/
def outdated (clock : Clock) (maxAge : Duration) (p : PersistedMessage) : Option MessageState :=
  let old := (UInt64.ofNat (asMillis maxAge)).toNat
    < (epochMs clock.wall).toNat - p.updatedAtEpochMs.toNat
  if p.state = 2 then if old then some .delivered else none
  else if p.state = 3 then if old then some .failed else none
  else if p.state = 4 then if old then some .expired else none
  else none

/-- The list `to_delete` of `prune_terminal`. -/
def toDelete (clock : Clock) (maxAge : Duration) (s : PersistentStorage) :
    List (Key × MessageId × MessageState) :=
  s.messages.iter.filterMap fun e =>
    (outdated clock maxAge e.2).map fun state => (e.1, ⟨e.2.id⟩, state)

/-- `prune_terminal`, with the number of messages it removed. -/
def pruneTerminal (clock : Clock) (maxAge : Duration) (s : PersistentStorage) :
    PersistentStorage × Nat :=
  ((s.toDelete clock maxAge).foldl
      (fun s d => (s.removeStateIndex d.2.2 d.2.1).removeRecord d.1) s,
    (s.toDelete clock maxAge).length)

end PersistentStorage

end Smppd.Store
