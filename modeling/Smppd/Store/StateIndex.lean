/-
  The STATE INDEX of `PersistentStorage`.

  Five operations maintain `messages_by_state` by hand, with separate remove and insert calls.
  `Indexed` says what they are meant to maintain: a record stands under the key of its own id, its
  state byte is a state code, and the index holds exactly the entries `state_{s}_{id} -> id` of the
  stored records.  Everything an operation does to the two partitions is one of three moves, and
  each move keeps `Indexed`:

  * `indexed_fresh`   — persist a message whose id has no record;
  * `indexed_replace` — drop the index entry of a record and persist its successor (or just persist,
    when the state byte is the same);
  * `indexed_drop`    — drop the index entry of a record, then the record.

  `expire_old` and `prune_terminal` walk a snapshot; what carries the walk is that the records of
  the snapshot not visited yet are still in place (`Ahead`).  From `Indexed`, `getByState_spec`
  reads off that a scan of the index is a scan of the state.
-/
import Smppd.Lib.Machine
import Smppd.Store.Persistent

set_option linter.unusedVariables false

namespace Smppd.Store.PersistentStorage

open Table Machine

/-! ## The invariant -/

/-- The index entry of a record. -/
def entryOf (p : PersistedMessage) : Key × List UInt8 := (stateKey p.state ⟨p.id⟩, toBeBytes p.id)

/-- The two partitions are in step. -/
structure Indexed (s : PersistentStorage) : Prop where
  /-- A record stands under the key of its own id. -/
  keyed : ∀ key p, s.messages.lookup key = some p → key = msgKey ⟨p.id⟩
  /-- Its state byte is a state code. -/
  coded : ∀ key p, s.messages.lookup key = some p → (MessageState.ofCode p.state).code = p.state
  /-- The index holds the entries of the stored records and nothing else. -/
  index : ∀ k v, s.messagesByState.lookup k = some v ↔
    ∃ key p, s.messages.lookup key = some p ∧ entryOf p = (k, v)

theorem indexed_empty : Indexed empty where
  keyed := fun key p h => nomatch h
  coded := fun key p h => nomatch h
  index := fun k v => ⟨nofun, fun ⟨_, _, h, _⟩ => nomatch h⟩

/-- Two records of the same id are one record. -/
theorem Indexed.unique {s : PersistentStorage} (h : Indexed s) {key key' : Key}
    {p p' : PersistedMessage} (hp : s.messages.lookup key = some p)
    (hp' : s.messages.lookup key' = some p') (hid : p.id = p'.id) : p = p' := by
  rw [h.keyed key p hp, hid] at hp
  rw [h.keyed key' p' hp', hp] at hp'
  exact Option.some.inj hp'

/-! ## The three moves -/

/-- What the index must be before a record `p` is inserted in the place of the record under its
    key: the entries of the OTHER records, and possibly `p`'s own. -/
def OthersIndexed (s : PersistentStorage) (id : MessageId) (own : Key) : Prop :=
  ∀ k v, k ≠ own → (s.messagesByState.lookup k = some v ↔
    ∃ key p, s.messages.lookup key = some p ∧ p.id ≠ id.val ∧ entryOf p = (k, v))

/-- Persisting a message over whatever record its id has, once the index is clear of that id. -/
theorem indexed_persist {s : PersistentStorage} {clock : Clock} {m : StoredMessage}
    (hkeyed : ∀ key p, s.messages.lookup key = some p → key = msgKey ⟨p.id⟩)
    (hcoded : ∀ key p, s.messages.lookup key = some p →
      (MessageState.ofCode p.state).code = p.state)
    (hothers : OthersIndexed s m.id (stateKey m.state.code m.id)) :
    Indexed (s.persistMessage clock m) := by
  have hrec : ∀ key p, (s.persistMessage clock m).messages.lookup key = some p ↔
      (key = msgKey m.id ∧ p = toPersisted clock m) ∨
        (s.messages.lookup key = some p ∧ p.id ≠ m.id.val) := by
    intro key p
    rw [lookup_persist_eq_some, and_comm (a := key ≠ msgKey m.id)]
    refine or_congr_right (and_congr_right fun hp => not_congr ?_)
    -- a record stands under the key of its id
    rw [hkeyed key p hp]
    constructor
    · intro hk
      exact congrArg MessageId.val (msgKey_injective hk)
    · intro hid
      rw [hid]
  refine ⟨?_, ?_, ?_⟩
  · intro key p h
    rcases (hrec key p).mp h with ⟨rfl, rfl⟩ | ⟨hp, -⟩
    · rfl
    · exact hkeyed key p hp
  · intro key p h
    rcases (hrec key p).mp h with ⟨-, rfl⟩ | ⟨hp, -⟩
    · exact congrArg MessageState.code (MessageState.ofCode_code m.state)
    · exact hcoded key p hp
  · intro k v
    show (s.messagesByState.insert (stateKey m.state.code m.id) (toBeBytes m.id.val)).lookup k
      = some v ↔ _
    rw [lookup_insert_eq_some]
    constructor
    · rintro (⟨rfl, rfl⟩ | ⟨hk, hold⟩)
      · exact ⟨msgKey m.id, toPersisted clock m, (hrec _ _).mpr (Or.inl ⟨rfl, rfl⟩), rfl⟩
      · obtain ⟨key, p, hp, hne, hentry⟩ := (hothers k v hk).mp hold
        exact ⟨key, p, (hrec key p).mpr (Or.inr ⟨hp, hne⟩), hentry⟩
    · rintro ⟨key, p, hp, hentry⟩
      obtain ⟨hkey, rfl⟩ := Prod.mk.inj hentry
      by_cases hk : k = stateKey m.state.code m.id
      · have hid := (stateKey_injective (hkey.trans hk)).2
        exact Or.inl ⟨hk, congrArg toBeBytes (congrArg MessageId.val hid)⟩
      · rcases (hrec key p).mp hp with ⟨-, rfl⟩ | ⟨hp', hne⟩
        · exact absurd hkey.symm hk
        · exact Or.inr ⟨hk, (hothers k _ hk).mpr ⟨key, p, hp', hne, hentry⟩⟩

/-- **First move**: a message under a new id. -/
theorem indexed_fresh {s : PersistentStorage} (h : Indexed s) {clock : Clock} {m : StoredMessage}
    (hfree : s.messages.lookup (msgKey m.id) = none) : Indexed (s.persistMessage clock m) := by
  refine indexed_persist h.keyed h.coded fun k v _ => (h.index k v).trans ?_
  constructor
  · rintro ⟨key, p, hp, hentry⟩
    refine ⟨key, p, hp, fun hid => ?_, hentry⟩
    have hkey := h.keyed key p hp
    rw [hid] at hkey
    rw [hkey, hfree] at hp
    cases hp
  · rintro ⟨key, p, hp, -, hentry⟩
    exact ⟨key, p, hp, hentry⟩

/-- Dropping the index entry of a record leaves the entries of the others. -/
theorem lookup_removeStateIndex {s : PersistentStorage} (h : Indexed s) {key₀ : Key}
    {p₀ : PersistedMessage} (hp₀ : s.messages.lookup key₀ = some p₀) (k : Key) (v : List UInt8) :
    (s.removeStateIndex (.ofCode p₀.state) ⟨p₀.id⟩).messagesByState.lookup k = some v ↔
      ∃ key p, s.messages.lookup key = some p ∧ p.id ≠ p₀.id ∧ entryOf p = (k, v) := by
  show (s.messagesByState.erase (stateKey (MessageState.ofCode p₀.state).code ⟨p₀.id⟩)).lookup k
    = some v ↔ _
  rw [h.coded key₀ p₀ hp₀]
  rw [lookup_erase_eq_some, h.index k v]
  constructor
  · rintro ⟨hk, key, p, hp, hentry⟩
    refine ⟨key, p, hp, fun hid => hk ?_, hentry⟩
    rw [← h.unique hp hp₀ hid]
    exact (Prod.mk.inj hentry).1.symm
  · rintro ⟨key, p, hp, hne, hentry⟩
    refine ⟨fun hk => hne ?_, key, p, hp, hentry⟩
    have hid := (stateKey_injective ((Prod.mk.inj hentry).1.trans hk)).2
    exact congrArg MessageId.val hid

/-- **Second move**: the successor of a record, its old index entry dropped first unless the state
    byte stays. -/
theorem indexed_replace {s : PersistentStorage} (h : Indexed s) {clock : Clock} {m : StoredMessage}
    {p₀ : PersistedMessage} (hp₀ : s.messages.lookup (msgKey m.id) = some p₀)
    {s' : PersistentStorage}
    (hs' : s' = s.removeStateIndex (.ofCode p₀.state) m.id ∨ (s' = s ∧ p₀.state = m.state.code)) :
    Indexed (s'.persistMessage clock m) := by
  have hid : m.id = ⟨p₀.id⟩ := msgKey_injective (h.keyed _ p₀ hp₀)
  rcases hs' with rfl | ⟨rfl, hstate⟩
  · refine indexed_persist h.keyed h.coded fun k v _ => ?_
    rw [hid]
    exact lookup_removeStateIndex h hp₀ k v
  · refine indexed_persist h.keyed h.coded fun k v hk => (h.index k v).trans ?_
    constructor
    · rintro ⟨key, p, hp, hentry⟩
      refine ⟨key, p, hp, fun hpid => hk ?_, hentry⟩
      have hsame : p = p₀ := h.unique hp hp₀ (hpid.trans (congrArg MessageId.val hid))
      rw [← (Prod.mk.inj hentry).1, hsame, hstate, hid]
    · rintro ⟨key, p, hp, -, hentry⟩
      exact ⟨key, p, hp, hentry⟩

/-- **Third move**: drop a record, its index entry first. -/
theorem indexed_drop {s : PersistentStorage} (h : Indexed s) {key₀ : Key} {p₀ : PersistedMessage}
    (hp₀ : s.messages.lookup key₀ = some p₀) :
    Indexed ((s.removeStateIndex (.ofCode p₀.state) ⟨p₀.id⟩).removeRecord key₀) := by
  have hrec : ∀ key p, (s.messages.erase key₀).lookup key = some p ↔
      s.messages.lookup key = some p ∧ p.id ≠ p₀.id := by
    intro key p
    rw [lookup_erase_eq_some, and_comm]
    refine and_congr_right fun hp => not_congr ?_
    constructor
    · rintro rfl
      rw [hp] at hp₀
      exact congrArg PersistedMessage.id (Option.some.inj hp₀)
    · intro hid
      rw [h.keyed key p hp, h.keyed key₀ p₀ hp₀, hid]
  refine ⟨?_, ?_, ?_⟩
  · intro key p hp
    exact h.keyed key p ((hrec key p).mp hp).1
  · intro key p hp
    exact h.coded key p ((hrec key p).mp hp).1
  · intro k v
    refine (lookup_removeStateIndex h hp₀ k v).trans ?_
    constructor
    · rintro ⟨key, p, hp, hne, hentry⟩
      exact ⟨key, p, (hrec key p).mpr ⟨hp, hne⟩, hentry⟩
    · rintro ⟨key, p, hp, hentry⟩
      exact ⟨key, p, ((hrec key p).mp hp).1, ((hrec key p).mp hp).2, hentry⟩

/-! ## The operations -/

/-- A closure that keeps the message id, as every closure the gateway passes to `update` does. -/
structure Keeping where
  apply : StoredMessage → StoredMessage
  keepsId : ∀ m, (apply m).id = m.id

theorem indexed_update {s : PersistentStorage} (h : Indexed s) (clock : Clock) (id : MessageId)
    (f : Keeping) : Indexed (s.update clock id f.apply).1 := by
  unfold update loadMessage
  cases hl : s.messages.lookup (msgKey id) with
  | none => exact h
  | some p =>
    have hpid : id = ⟨p.id⟩ := msgKey_injective (h.keyed _ p hl)
    have hfid : (f.apply (persistedToStored clock p)).id = id := (f.keepsId _).trans hpid.symm
    simp only [Option.map_some]
    refine indexed_replace h (by rw [hfid]; exact hl) ?_
    rw [hfid]
    by_cases hst : (persistedToStored clock p).state ≠ (f.apply (persistedToStored clock p)).state
    · exact Or.inl (if_pos hst)
    · refine Or.inr ⟨if_neg hst, ?_⟩
      rw [← of_not_not hst]
      exact (h.coded _ p hl).symm

theorem indexed_delete {s : PersistentStorage} (h : Indexed s) (clock : Clock) (id : MessageId) :
    Indexed (s.delete clock id).1 := by
  unfold delete loadMessage
  cases hl : s.messages.lookup (msgKey id) with
  | none => exact h
  | some p =>
    have hpid : id = ⟨p.id⟩ := msgKey_injective (h.keyed _ p hl)
    have hdrop := indexed_drop h hl
    rw [← hpid] at hdrop
    exact hdrop

/-- The records of a snapshot that a walk has not visited yet are still in place. -/
def Ahead (s : PersistentStorage) (rest : List (Sigma fun _ : Key => PersistedMessage)) : Prop :=
  (rest.map Sigma.fst).Nodup ∧ ∀ e ∈ rest, s.messages.lookup e.1 = some e.2

theorem ahead_iter (s : PersistentStorage) : Ahead s s.messages.iter :=
  ⟨s.messages.iter_keys_nodup, fun _ he => Partition.mem_iter.mp he⟩

/-- A walk step that touches only the record it visits leaves the rest of the snapshot ahead. -/
theorem Ahead.tail {s s' : PersistentStorage} {e : Sigma fun _ : Key => PersistedMessage}
    {rest : List (Sigma fun _ : Key => PersistedMessage)} (h : Ahead s (e :: rest))
    (hother : ∀ key, key ≠ e.1 → s'.messages.lookup key = s.messages.lookup key) :
    Ahead s' rest := by
  obtain ⟨hnd, hall⟩ := h
  rw [List.map_cons, List.nodup_cons] at hnd
  refine ⟨hnd.2, fun e' he' => ?_⟩
  have hne : e'.1 ≠ e.1 := by
    intro heq
    exact hnd.1 (heq ▸ List.mem_map_of_mem he')
  rw [hother _ hne]
  exact hall e' (List.mem_cons_of_mem e he')

theorem indexed_expireRecord {s : PersistentStorage} (h : Indexed s) (clock : Clock)
    (ttl : Duration) {e : Sigma fun _ : Key => PersistedMessage}
    (he : s.messages.lookup e.1 = some e.2) :
    Indexed (s.expireRecord clock ttl e.2) ∧
      ∀ key, key ≠ e.1 → (s.expireRecord clock ttl e.2).messages.lookup key
        = s.messages.lookup key := by
  have hkey := h.keyed _ _ he
  unfold expireRecord
  by_cases hdue : overdue clock ttl e.2 = true
  · rw [if_pos hdue]
    have hpending : MessageState.ofCode e.2.state = .pending := by
      unfold overdue at hdue
      rw [Bool.and_eq_true, decide_eq_true_eq] at hdue
      rw [hdue.1]
      rfl
    constructor
    · have hrecord : s.messages.lookup (msgKey ⟨e.2.id⟩) = some e.2 := by
        rw [hkey] at he
        exact he
      refine indexed_replace h hrecord (Or.inl ?_)
      rw [hpending]
      rfl
    · intro key hne
      rw [hkey] at hne
      exact AList.lookup_insert_ne hne
  · rw [if_neg hdue]
    exact ⟨h, fun _ _ => rfl⟩

/-- The walk of `expire_old`, by induction on what is left of the snapshot. -/
theorem indexed_expireWalk (clock : Clock) (ttl : Duration)
    (rest : List (Sigma fun _ : Key => PersistedMessage)) (s : PersistentStorage)
    (h : Indexed s) (hahead : Ahead s rest) :
    Indexed (rest.foldl (fun s e => s.expireRecord clock ttl e.2) s) := by
  induction rest generalizing s with
  | nil => exact h
  | cons e rest ih =>
    obtain ⟨hi, hother⟩ := indexed_expireRecord h clock ttl (hahead.2 e List.mem_cons_self)
    exact ih _ hi (hahead.tail hother)

theorem indexed_expireOld {s : PersistentStorage} (h : Indexed s) (clock : Clock)
    (ttl : Duration) : Indexed (s.expireOld clock ttl).1 :=
  indexed_expireWalk clock ttl _ s h (ahead_iter s)

/-- The state on the list of `prune_terminal` is the state of the record. -/
theorem outdated_state {clock : Clock} {maxAge : Duration} {p : PersistedMessage}
    {state : MessageState} (h : outdated clock maxAge p = some state) :
    MessageState.ofCode p.state = state := by
  unfold outdated at h
  simp only at h
  split at h
  · rename_i hc
    rw [hc]
    split at h <;> cases h
    rfl
  · split at h
    · rename_i hc
      rw [hc]
      split at h <;> cases h
      rfl
    · split at h
      · rename_i hc
        rw [hc]
        split at h <;> cases h
        rfl
      · cases h

/-- The walk of `prune_terminal` over the entries that made the list. -/
theorem indexed_pruneWalk (clock : Clock) (maxAge : Duration)
    (rest : List (Sigma fun _ : Key => PersistedMessage)) (s : PersistentStorage)
    (h : Indexed s) (hahead : Ahead s rest) :
    Indexed ((rest.filterMap fun e =>
        (outdated clock maxAge e.2).map fun state => (e.1, (⟨e.2.id⟩ : MessageId), state)).foldl
      (fun s d => (s.removeStateIndex d.2.2 d.2.1).removeRecord d.1) s) := by
  induction rest generalizing s with
  | nil => exact h
  | cons e rest ih =>
    have he := hahead.2 e List.mem_cons_self
    cases hout : outdated clock maxAge e.2 with
    | none =>
      rw [List.filterMap_cons_none (by rw [hout]; rfl)]
      exact ih s h (hahead.tail fun _ _ => rfl)
    | some state =>
      rw [List.filterMap_cons_some (by rw [hout]; rfl), List.foldl_cons]
      have hdrop := indexed_drop h he
      rw [outdated_state hout] at hdrop
      exact ih _ hdrop (hahead.tail fun _ hne => AList.lookup_erase_ne hne)

theorem indexed_pruneTerminal {s : PersistentStorage} (h : Indexed s) (clock : Clock)
    (maxAge : Duration) : Indexed (s.pruneTerminal clock maxAge).1 :=
  indexed_pruneWalk clock maxAge _ s h (ahead_iter s)

/-! ## Reading through the index -/

/-- The loop of `get_by_state` collects the first `limit` messages the index entries lead to. -/
theorem collect_eq (clock : Clock) (limit : Nat) (s : PersistentStorage)
    (entries : List (Sigma fun _ : Key => List UInt8)) (results : List StoredMessage) :
    s.collect clock limit entries results =
      results ++ (entries.filterMap fun e => s.indexed clock e.2).take
        (limit - results.length) := by
  induction entries generalizing results with
  | nil => rw [collect, List.filterMap_nil, List.take_nil, List.append_nil]
  | cons e entries ih =>
    rw [collect]
    by_cases hfull : limit ≤ results.length
    · rw [if_pos hfull, Nat.sub_eq_zero_of_le hfull, List.take_zero, List.append_nil]
    · rw [if_neg hfull, ih]
      cases hix : s.indexed clock e.2 with
      | none =>
        simp only [List.filterMap_cons, hix, Option.toList_none, List.append_nil]
      | some m =>
        have hroom : limit - results.length = limit - (results.length + 1) + 1 := by omega
        simp only [List.filterMap_cons, hix, Option.toList_some, hroom, List.take_succ_cons,
          List.length_append, List.length_singleton, List.append_assoc, List.singleton_append]

/-- The records in a given state, in the order of the index. -/
def inState (clock : Clock) (state : MessageState) (s : PersistentStorage) : List StoredMessage :=
  (s.messagesByState.startingWith (statePrefix state.code)).filterMap fun e => s.indexed clock e.2

theorem getByState_eq (clock : Clock) (state : MessageState) (limit : Nat)
    (s : PersistentStorage) :
    s.getByState clock state limit = (s.inState clock state).take limit := by
  rw [getByState, collect_eq]
  rfl

/-- An index entry under a state's prefix leads to a record in that state. -/
theorem Indexed.entry {s : PersistentStorage} (h : Indexed s) {state : MessageState}
    {e : Sigma fun _ : Key => List UInt8}
    (he : e ∈ s.messagesByState.startingWith (statePrefix state.code)) (clock : Clock) :
    ∃ p, s.messages.lookup (msgKey ⟨p.id⟩) = some p ∧ p.state = state.code ∧
      e.1 = stateKey p.state ⟨p.id⟩ ∧ s.indexed clock e.2 = some (persistedToStored clock p) := by
  obtain ⟨hin, hpre⟩ := List.mem_filter.mp he
  obtain ⟨key, p, hp, hentry⟩ := (h.index e.1 e.2).mp (Partition.mem_iter.mp hin)
  obtain ⟨hk, hv⟩ := Prod.mk.inj hentry
  rw [← hk] at hpre
  have hrecord : s.messages.lookup (msgKey ⟨p.id⟩) = some p := by
    rw [← h.keyed key p hp]
    exact hp
  refine ⟨p, hrecord, (statePrefix_isPrefixOf.mp hpre).symm, hk.symm, ?_⟩
  rw [← hv, indexed, if_pos (length_toBeBytes p.id), fromBeBytes_toBeBytes, loadMessage, hrecord]
  rfl

/-- What the index lists for a state is what is stored in that state. -/
theorem Indexed.mem_inState {s : PersistentStorage} (h : Indexed s) (clock : Clock)
    (state : MessageState) (m : StoredMessage) :
    m ∈ s.inState clock state ↔
      ∃ p, s.messages.lookup (msgKey ⟨p.id⟩) = some p ∧ p.state = state.code ∧
        m = persistedToStored clock p := by
  constructor
  · intro hm
    obtain ⟨e, he, hix⟩ := List.mem_filterMap.mp hm
    obtain ⟨p, hp, hst, -, hload⟩ := h.entry he clock
    exact ⟨p, hp, hst, Option.some.inj (hix.symm.trans hload)⟩
  · rintro ⟨p, hp, hst, rfl⟩
    have hin : (⟨stateKey p.state ⟨p.id⟩, toBeBytes p.id⟩ : Sigma fun _ : Key => List UInt8)
        ∈ s.messagesByState.startingWith (statePrefix state.code) := by
      refine List.mem_filter.mpr ⟨Partition.mem_iter.mpr ((h.index _ _).mpr ⟨_, p, hp, rfl⟩), ?_⟩
      exact statePrefix_isPrefixOf.mpr hst.symm
    refine List.mem_filterMap.mpr ⟨_, hin, ?_⟩
    rw [indexed, if_pos (length_toBeBytes p.id), fromBeBytes_toBeBytes, loadMessage, hp]
    rfl

/-- The index lists no message twice. -/
theorem Indexed.inState_ids_nodup {s : PersistentStorage} (h : Indexed s) (clock : Clock)
    (state : MessageState) : ((s.inState clock state).map StoredMessage.id).Nodup := by
  have hkeys : ((s.messagesByState.startingWith (statePrefix state.code)).map Sigma.fst).Nodup :=
    s.messagesByState.iter_keys_nodup.sublist (List.filter_sublist.map Sigma.fst)
  -- the key of an index entry is a function of the id it leads to
  have hkey : (s.inState clock state).map (fun m => stateKey state.code m.id) =
      (s.messagesByState.startingWith (statePrefix state.code)).map Sigma.fst := by
    unfold inState
    have hall : ∀ e ∈ s.messagesByState.startingWith (statePrefix state.code),
        ∃ m, s.indexed clock e.2 = some m ∧ stateKey state.code m.id = e.1 := by
      intro e he
      obtain ⟨p, -, hst, hk, hload⟩ := h.entry he clock
      exact ⟨_, hload, by rw [hk, hst]; rfl⟩
    generalize s.messagesByState.startingWith (statePrefix state.code) = entries at hall
    induction entries with
    | nil => rfl
    | cons e rest ih =>
      obtain ⟨m, hm, hkm⟩ := hall e List.mem_cons_self
      have hrest := ih fun e' he' => hall e' (List.mem_cons_of_mem e he')
      simp only [List.filterMap_cons, hm, List.map_cons, hkm, hrest]
  rw [← hkey] at hkeys
  refine List.Nodup.of_map (stateKey state.code) ?_
  rwa [List.map_map]

/-- The number of stored records in a state. -/
def countIn (state : MessageState) (s : PersistentStorage) : Nat :=
  s.messages.entries.countP fun e => e.2.state = state.code

theorem Indexed.length_inState {s : PersistentStorage} (h : Indexed s) (clock : Clock)
    (state : MessageState) : (s.inState clock state).length = s.countIn state := by
  have hnd : ((s.inState clock state).map fun m => msgKey m.id).Nodup := by
    have := (h.inState_ids_nodup clock state).map (f := msgKey) fun _ _ => msgKey_injective
    rwa [List.map_map] at this
  have hnd' : ((s.messages.entries.filter fun e => e.2.state = state.code).map Sigma.fst).Nodup :=
    s.messages.nodupKeys.sublist List.filter_sublist
  -- both lists of keys are free of repetitions and have the same members
  have hperm : ((s.inState clock state).map fun m => msgKey m.id).Perm
      ((s.messages.entries.filter fun e => e.2.state = state.code).map Sigma.fst) := by
    refine (List.perm_ext_iff_of_nodup hnd hnd').mpr fun key => ⟨fun hk => ?_, fun hk => ?_⟩
    · obtain ⟨m, hm, rfl⟩ := List.mem_map.mp hk
      obtain ⟨p, hp, hst, rfl⟩ := (h.mem_inState clock state m).mp hm
      exact List.mem_map.mpr ⟨⟨_, p⟩, List.mem_filter.mpr ⟨mem_entries.mpr hp, by simpa using hst⟩,
        rfl⟩
    · obtain ⟨⟨k, p⟩, he, rfl⟩ := List.mem_map.mp hk
      obtain ⟨hin, hst⟩ := List.mem_filter.mp he
      have hp := mem_entries.mp hin
      have hkey := h.keyed k p hp
      rw [hkey] at hp
      refine List.mem_map.mpr ⟨persistedToStored clock p, ?_, hkey.symm⟩
      exact (h.mem_inState clock state _).mpr ⟨p, hp, of_decide_eq_true hst, rfl⟩
  have hlen := hperm.length_eq
  rw [List.length_map, List.length_map, ← List.countP_eq_length_filter] at hlen
  exact hlen

/-! ## Every sequence of operations -/

/-- One call on the store, with what it reads from its environment. -/
inductive Op where
  | store (clock : Clock) (message : StoredMessage)
  | update (clock : Clock) (id : MessageId) (f : Keeping)
  | delete (clock : Clock) (id : MessageId)
  | expireOld (clock : Clock) (ttl : Duration)
  | pruneTerminal (clock : Clock) (maxAge : Duration)

/-- One operation; a `store` is enabled when its id is not currently stored. -/
def step (s : PersistentStorage) : Op → Option PersistentStorage
  | .store clock message =>
    match s.messages.lookup (msgKey message.id) with
    | some _ => none
    | none => some (s.store clock message)
  | .update clock id f => some (s.update clock id f.apply).1
  | .delete clock id => some (s.delete clock id).1
  | .expireOld clock ttl => some (s.expireOld clock ttl).1
  | .pruneTerminal clock maxAge => some (s.pruneTerminal clock maxAge).1

/-- **The step lemma**: every operation keeps the index in step. -/
theorem step_indexed (s : PersistentStorage) (op : Op) (s' : PersistentStorage)
    (h : Indexed s) (hstep : step s op = some s') : Indexed s' := by
  cases op with
  | store clock message =>
    simp only [step] at hstep
    cases hfree : s.messages.lookup (msgKey message.id) with
    | some p => rw [hfree] at hstep; cases hstep
    | none =>
      rw [hfree] at hstep
      obtain rfl := Option.some.inj hstep
      exact indexed_fresh h hfree
  | update clock id f =>
    obtain rfl := Option.some.inj hstep
    exact indexed_update h clock id f
  | delete clock id =>
    obtain rfl := Option.some.inj hstep
    exact indexed_delete h clock id
  | expireOld clock ttl =>
    obtain rfl := Option.some.inj hstep
    exact indexed_expireOld h clock ttl
  | pruneTerminal clock maxAge =>
    obtain rfl := Option.some.inj hstep
    exact indexed_pruneTerminal h clock maxAge

/-- Every run from an empty keyspace keeps the index in step. -/
theorem run_indexed {ops : List Op} {s : PersistentStorage} (hrun : run step empty ops = some s) :
    Indexed s :=
  run_inv step_indexed indexed_empty hrun

/-- The index entries that belong to the id are exactly one, under the state code `code`. -/
def OneEntry (s : PersistentStorage) (id : MessageId) (code : UInt8) : Prop :=
  ∀ c v, s.messagesByState.lookup (stateKey c id) = some v ↔ c = code ∧ v = toBeBytes id.val

theorem Indexed.oneEntry {s : PersistentStorage} (h : Indexed s) {id : MessageId}
    {p : PersistedMessage} (hp : s.messages.lookup (msgKey id) = some p) :
    OneEntry s id p.state := by
  have hid : id = ⟨p.id⟩ := msgKey_injective (h.keyed _ p hp)
  intro c v
  rw [h.index]
  constructor
  · rintro ⟨key, p', hp', hentry⟩
    obtain ⟨hk, rfl⟩ := Prod.mk.inj hentry
    obtain ⟨rfl, hid'⟩ := stateKey_injective hk
    have hsame : p' = p := h.unique hp' hp (congrArg MessageId.val (hid'.trans hid))
    rw [hsame, hid]
    exact ⟨rfl, rfl⟩
  · rintro ⟨rfl, rfl⟩
    refine ⟨_, p, hp, ?_⟩
    rw [hid]
    rfl

/-- What `messages_by_state` promises, and what a scan of it returns. -/
structure ExactIndex (s : PersistentStorage) : Prop where
  /-- Each stored message has exactly one entry, under its current state. -/
  one : ∀ id p, s.messages.lookup (msgKey id) = some p → OneEntry s id p.state
  /-- The index has no other entry. -/
  only : ∀ k v, s.messagesByState.lookup k = some v →
    ∃ id p, s.messages.lookup (msgKey id) = some p ∧ k = stateKey p.state id ∧
      v = toBeBytes id.val
  /-- `get_by_state` returns stored messages of the state asked for. -/
  sound : ∀ clock state limit, ∀ m ∈ s.getByState clock state limit,
    m.state = state ∧ s.get clock m.id = some m
  /-- None of them twice. -/
  nodup : ∀ clock state limit, ((s.getByState clock state limit).map StoredMessage.id).Nodup
  /-- All of them, when the limit is at least their number. -/
  complete : ∀ clock state limit, s.countIn state ≤ limit →
    ∀ id m, s.get clock id = some m → m.state = state → m ∈ s.getByState clock state limit

/-- **The state index is exact** after every sequence of operations from an empty keyspace. -/
theorem state_index_exact (ops : List Op) (s : PersistentStorage)
    (hrun : run step empty ops = some s) : ExactIndex s := by
  have h := run_indexed hrun
  refine ⟨fun id p hp => h.oneEntry hp, ?_, ?_, ?_, ?_⟩
  · intro k v hk
    obtain ⟨key, p, hp, hentry⟩ := (h.index k v).mp hk
    obtain ⟨rfl, rfl⟩ := Prod.mk.inj hentry
    rw [h.keyed key p hp] at hp
    exact ⟨⟨p.id⟩, p, hp, rfl, rfl⟩
  · intro clock state limit m hm
    rw [getByState_eq] at hm
    obtain ⟨p, hp, hst, rfl⟩ := (h.mem_inState clock state m).mp (List.mem_of_mem_take hm)
    refine ⟨?_, ?_⟩
    · show MessageState.ofCode p.state = state
      rw [hst, MessageState.ofCode_code]
    · show (s.messages.lookup (msgKey ⟨p.id⟩)).map _ = _
      rw [hp]
      rfl
  · intro clock state limit
    rw [getByState_eq]
    exact (h.inState_ids_nodup clock state).sublist ((List.take_sublist _ _).map _)
  · intro clock state limit hlimit id m hget hst
    rw [getByState_eq,
      List.take_of_length_le (by rw [h.length_inState clock state]; exact hlimit)]
    obtain ⟨p, hp, rfl⟩ := Option.map_eq_some_iff.mp hget
    refine (h.mem_inState clock state _).mpr ⟨p, ?_, ?_, rfl⟩
    · rw [← h.keyed _ p hp]
      exact hp
    · rw [← h.coded _ p hp]
      exact congrArg MessageState.code hst

/-- One message stored, and an expiry pass a second later. -/
theorem state_index_exact_after_expiry :
    ExactIndex ((empty.store ⟨0, 0⟩ (.sample 0)).expireOld ⟨1000000000, 1000000000⟩ 0).1 :=
  state_index_exact [.store ⟨0, 0⟩ (.sample 0), .expireOld ⟨1000000000, 1000000000⟩ 0] _ rfl

end Smppd.Store.PersistentStorage
