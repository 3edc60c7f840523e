/-
  What CORRELATION needs of a storage.

  A receipt finds its message by a query and changes a handful of its fields.  `Summary` is that
  handful, and `look` reads it from the store; unlike `get` it does not depend on when one looks
  (the persistent back end rebuilds the timestamps of a record at every read).

  `QueryStorage` has one equation of `look` per operation, and says of a query by state that it
  returns messages stored in that state, and all of them when they are no more than its limit.  Both
  back ends satisfy it; for the persistent one this rests on the state index.
-/
import Smppd.Store.Trait

set_option linter.unusedVariables false

namespace Smppd.Store

open Table

/-! ## What a receipt sees of a message -/

/-- The fields a receipt looks at or changes. -/
structure Summary where
  state : MessageState
  smscMessageId : Option String
  cluster : Option String
  systemId : String
  lastErrorCode : Option UInt32
  lastError : Option String

/-- The summary of a message. -/
def StoredMessage.summary (m : StoredMessage) : Summary :=
  ⟨m.state, m.smscMessageId, m.cluster, m.systemId, m.lastErrorCode, m.lastError⟩

/-- The summary of the message stored under an id. -/
def look {S : Type} [Storage S] (id : MessageId) (s : S) : Option Summary :=
  (Storage.get ⟨⟨0, 0⟩, .listed⟩ id s).map StoredMessage.summary

/-- A storage whose queries by state are exact. -/
class QueryStorage (S : Type) [Storage S] where
  /-- The shape the operations keep. -/
  Good : S → Prop
  /-- The number of messages in a state. -/
  tally : MessageState → S → Nat
  good_store : ∀ env m (s : S), Good s → look m.id s = none → Good (Storage.store env m s)
  good_update : ∀ env id f (s : S), (∀ m, (f m).id = m.id) → Good s →
    Good (Storage.update env id f s).1
  look_get : ∀ env id (s : S), (Storage.get env id s).map StoredMessage.summary = look id s
  look_store_self : ∀ env m (s : S), look m.id (Storage.store env m s) = some m.summary
  look_store_ne : ∀ env m (s : S) id, id ≠ m.id →
    look id (Storage.store env m s) = look id s ∨ look id (Storage.store env m s) = none
  look_update : ∀ env id f (s : S) id', (∀ m, (f m).id = m.id) → Good s →
    look id' (Storage.update env id f s).1 =
      if id' = id then (Storage.get env id s).map fun m => (f m).summary else look id' s
  /-- A query by state returns stored messages in that state. -/
  query_sound : ∀ env state n (s : S) m, Good s →
    m ∈ Storage.query env (.byState state n) s → Storage.get env m.id s = some m ∧ m.state = state
  /-- It returns all of them when they are no more than the limit. -/
  query_complete : ∀ env state n (s : S) id v, Good s → look id s = some v → v.state = state →
    tally state s ≤ n → ∃ m ∈ Storage.query env (.byState state n) s, m.id = id

/-! ## The in-memory back end -/

namespace MemoryStorage

theorem look_eq (id : MessageId) (s : MemoryStorage) :
    look id s = (s.get id).map StoredMessage.summary := rfl

theorem look_of_get {id : MessageId} {s : MemoryStorage} {m : StoredMessage} (h : s.get id = some m) :
    look id s = some m.summary := by
  rw [look_eq, h]
  rfl

theorem look_eq_some {id : MessageId} {s : MemoryStorage} {v : Summary} :
    look id s = some v ↔ ∃ m, s.get id = some m ∧ m.summary = v :=
  Option.map_eq_some_iff

/-- The messages in a state, in iteration order. -/
def inState (order : IterOrder Entry) (state : MessageState) (s : MemoryStorage) :
    List StoredMessage :=
  ((order.arrange s.messages.entries).map fun e => e.2).filter fun m => m.state = state

theorem query_byState (order : IterOrder Entry) (state : MessageState) (n : Nat)
    (s : MemoryStorage) : s.query order (.byState state n) = (s.inState order state).take n := by
  unfold query inState MessageQuery.byState
  congr 1
  refine List.filter_congr fun m _ => ?_
  simp only [selects, Option.all_some, Option.all_none, Bool.and_true]

theorem mem_inState {order : IterOrder Entry} {state : MessageState} {s : MemoryStorage}
    {m : StoredMessage} : m ∈ s.inState order state ↔ (∃ id, s.get id = some m) ∧ m.state = state := by
  constructor
  · intro h
    obtain ⟨hin, hst⟩ := List.mem_filter.mp h
    obtain ⟨⟨k, m'⟩, he, rfl⟩ := List.mem_map.mp hin
    exact ⟨⟨k, mem_entries.mp (order.mem_arrange.mp he)⟩, of_decide_eq_true hst⟩
  · rintro ⟨⟨id, hget⟩, hst⟩
    refine List.mem_filter.mpr ⟨List.mem_map.mpr ⟨⟨id, m⟩, ?_, rfl⟩, decide_eq_true hst⟩
    exact order.mem_arrange.mpr (mem_entries.mpr hget)

/-- Whatever the order, the messages in a state are the same ones. -/
theorem inState_perm (order : IterOrder Entry) (state : MessageState) (s : MemoryStorage) :
    (s.inState order state).Perm (s.inState .listed state) := by
  have hvalues := (order.perm s.messages.entries).map fun e : Entry => e.2
  exact hvalues.filter fun m => m.state = state

/-- An update that leaves a state puts no message into it. -/
theorem countP_inState_update {f : StoredMessage → StoredMessage} {state : MessageState}
    (hf : ∀ m, (f m).state ≠ state) (q : StoredMessage → Bool) (id : MessageId) (s : MemoryStorage) :
    ((s.update id f).1.inState .listed state).countP q ≤ (s.inState .listed state).countP q := by
  unfold update
  cases hl : s.messages.lookup id with
  | none => exact Nat.le_refl _
  | some msg =>
    show (((s.messages.entries.map fun e => (⟨e.1, if e.1 = id then f e.2 else e.2⟩ : Entry)).map
      fun e => e.2).filter fun m => m.state = state).countP q ≤
      ((s.messages.entries.map fun e => e.2).filter fun m => m.state = state).countP q
    rw [List.countP_filter, List.countP_filter, List.map_map, List.countP_map, List.countP_map]
    refine List.countP_mono_left fun e _ he => ?_
    -- an entry that counts afterwards is not the one that was rewritten
    by_cases hid : e.1 = id
    · simp only [Function.comp_apply, hid, if_true, Bool.and_eq_true, decide_eq_true_eq] at he
      exact absurd he.2 (hf e.2)
    · simpa only [Function.comp_apply, hid, if_false] using he

/-- Walking some of the messages first lists those of a state that are among them first. -/
theorem inState_putFirst (q : StoredMessage → Bool) (state : MessageState) (s : MemoryStorage) :
    s.inState (.putFirst fun e => q e.2) state = Select.putFirst q (s.inState .listed state) := by
  show ((s.messages.entries.filter (fun e => q e.2) ++
      s.messages.entries.filter fun e => !q e.2).map fun e => e.2).filter _ =
    ((s.messages.entries.map fun e => e.2).filter _).filter q ++
      ((s.messages.entries.map fun e => e.2).filter _).filter fun m => !q m
  rw [List.map_append, List.filter_append, List.filter_filter, List.filter_filter]
  simp only [List.filter_map, List.filter_filter, Function.comp_def, Bool.and_comm]

end MemoryStorage

instance : QueryStorage MemoryStorage where
  Good := MemoryStorage.Keyed
  tally state s := (s.inState .listed state).length
  good_store env m s h _ := MemoryStorage.keyed_store h env.order m
  good_update env id f s hf h := MemoryStorage.keyed_update h id hf
  look_get env id s := rfl
  look_store_self env m s := by
    show ((s.store env.order m).get m.id).map StoredMessage.summary = _
    rw [MemoryStorage.get_store_self]
    rfl
  look_store_ne env m s id hne := by
    have hget := MemoryStorage.get_store env.order m s id
    rw [if_neg hne] at hget
    show ((s.store env.order m).get id).map StoredMessage.summary = (s.get id).map _ ∨
      ((s.store env.order m).get id).map StoredMessage.summary = none
    rw [hget]
    split
    · exact Or.inr rfl
    · exact Or.inl rfl
  look_update env id f s id' hf h := by
    show ((s.update id f).1.get id').map StoredMessage.summary = _
    rw [MemoryStorage.get_update]
    split
    · rename_i hid
      rw [hid, Option.map_map]
      rfl
    · rfl
  query_sound env state n s m h hm := by
    change m ∈ s.query env.order (.byState state n) at hm
    rw [MemoryStorage.query_byState] at hm
    obtain ⟨⟨id, hget⟩, hst⟩ := MemoryStorage.mem_inState.mp (List.mem_of_mem_take hm)
    refine ⟨?_, hst⟩
    show s.get m.id = some m
    rw [h id m hget]
    exact hget
  query_complete env state n s id v h hlook hst htally := by
    obtain ⟨m, hget, rfl⟩ := Option.map_eq_some_iff.mp hlook
    refine ⟨m, ?_, h id m hget⟩
    show m ∈ s.query env.order (.byState state n)
    have hlen : (s.inState env.order state).length ≤ n := by
      rw [(MemoryStorage.inState_perm env.order state s).length_eq]
      exact htally
    rw [MemoryStorage.query_byState, List.take_of_length_le hlen]
    exact MemoryStorage.mem_inState.mpr ⟨⟨id, hget⟩, hst⟩

/-! ## The persistent back end -/

namespace PersistentStorage

/-- The summary of a message does not change on its way through the store. -/
theorem summary_roundTrip (clock clock' : Clock) (m : StoredMessage) :
    (persistedToStored clock' (toPersisted clock m)).summary = m.summary := by
  simp only [StoredMessage.summary, persistedToStored, toPersisted, MessageState.ofCode_code]

theorem look_eq (id : MessageId) (s : PersistentStorage) :
    look id s = (s.messages.lookup (msgKey id)).map fun p => (persistedToStored ⟨0, 0⟩ p).summary := by
  show ((s.messages.lookup (msgKey id)).map (persistedToStored ⟨0, 0⟩)).map StoredMessage.summary = _
  rw [Option.map_map]
  rfl

theorem look_persist (clock : Clock) (m : StoredMessage) (s : PersistentStorage) (id : MessageId) :
    look id (s.persistMessage clock m) = if id = m.id then some m.summary else look id s := by
  rw [look_eq]
  show ((s.messages.insert (msgKey m.id) (toPersisted clock m)).lookup (msgKey id)).map _ = _
  by_cases hid : id = m.id
  · rw [hid, AList.lookup_insert, if_pos rfl]
    exact congrArg some (summary_roundTrip clock ⟨0, 0⟩ m)
  · rw [AList.lookup_insert_ne fun hk => hid (msgKey_injective hk), if_neg hid, look_eq]

/-- The summaries of the records in a state, in the order of the index. -/
def summaries (state : MessageState) (s : PersistentStorage) : List Summary :=
  (s.inState ⟨0, 0⟩ state).map StoredMessage.summary

/-- When the index is read makes no difference to the summaries. -/
theorem map_summary_inState (clock : Clock) (state : MessageState) (s : PersistentStorage) :
    (s.inState clock state).map StoredMessage.summary = s.summaries state := by
  unfold summaries inState
  rw [List.map_filterMap, List.map_filterMap]
  congr 1
  funext e
  unfold indexed loadMessage
  split
  · rw [Option.map_map, Option.map_map]
    rfl
  · rfl

end PersistentStorage

instance : QueryStorage PersistentStorage where
  Good := PersistentStorage.Indexed
  tally := PersistentStorage.countIn
  good_store env m s h hfree := by
    rw [PersistentStorage.look_eq, Option.map_eq_none_iff] at hfree
    exact PersistentStorage.indexed_fresh h hfree
  good_update env id f s hf h := PersistentStorage.indexed_update h env.clock id ⟨f, hf⟩
  look_get env id s := by
    rw [PersistentStorage.look_eq]
    show ((s.messages.lookup (msgKey id)).map (persistedToStored env.clock)).map _ = _
    rw [Option.map_map]
    rfl
  look_store_self env m s := by
    show look m.id (s.persistMessage env.clock m) = _
    rw [PersistentStorage.look_persist, if_pos rfl]
  look_store_ne env m s id hne := by
    refine Or.inl ?_
    show look id (s.persistMessage env.clock m) = _
    rw [PersistentStorage.look_persist, if_neg hne]
  look_update env id f s id' hf h := by
    show look id' (s.update env.clock id f).1 = if id' = id then (s.get env.clock id).map _ else _
    unfold PersistentStorage.update PersistentStorage.get
    cases hl : s.loadMessage env.clock id with
    | none =>
      simp only [Option.map_none]
      split
      · rename_i hid
        rw [hid, PersistentStorage.look_eq, Option.map_eq_none_iff.mp hl]
        rfl
      · rfl
    | some msg =>
      obtain ⟨p, hp, rfl⟩ := Option.map_eq_some_iff.mp hl
      have hid : id = ⟨p.id⟩ := msgKey_injective (h.keyed _ p hp)
      simp only
      rw [PersistentStorage.look_persist, hf, ← show id = (persistedToStored env.clock p).id from hid]
      split
      · rfl
      · split <;> rfl
  query_sound env state n s m h hm := by
    change m ∈ s.getByState env.clock state n at hm
    rw [PersistentStorage.getByState_eq] at hm
    obtain ⟨p, hp, hst, rfl⟩ :=
      (h.mem_inState env.clock state m).mp (List.mem_of_mem_take hm)
    refine ⟨?_, ?_⟩
    · show (s.messages.lookup (msgKey ⟨p.id⟩)).map _ = _
      rw [hp]
      rfl
    · show MessageState.ofCode p.state = state
      rw [hst, MessageState.ofCode_code]
  query_complete env state n s id v h hlook hst htally := by
    rw [PersistentStorage.look_eq] at hlook
    obtain ⟨p, hp, rfl⟩ := Option.map_eq_some_iff.mp hlook
    have hid : id = ⟨p.id⟩ := msgKey_injective (h.keyed _ p hp)
    refine ⟨persistedToStored env.clock p, ?_, hid.symm⟩
    show _ ∈ s.getByState env.clock state n
    rw [PersistentStorage.getByState_eq,
      List.take_of_length_le (by rw [h.length_inState]; exact htally)]
    refine (h.mem_inState env.clock state _).mpr ⟨p, by rw [← hid]; exact hp, ?_, rfl⟩
    rw [← h.coded _ p hp]
    exact congrArg MessageState.code hst

end Smppd.Store
