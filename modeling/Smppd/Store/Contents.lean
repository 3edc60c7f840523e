/-
  The CONTENTS of a store, as a list of messages.

  For the in-memory back end these are the values of the hash map, in no particular order.  For the
  persistent one they are the records in the order of their keys, as they read at a given moment; keys
  are compared as text, so the order is that of the DECIMAL ids (`10` comes before `9`).

  What a scan returns is then a filter of the contents, cut off at the limit:

  * `Covered.getByState_eq_take` — a walk of the state index is a filter by what is listed under the state;
  * `mem_scan_iff` — and a message is in it when it passes and fewer than `limit` messages that pass come
    before it, where "before" compares decimal ids (`placeOf`).

  Both back ends run through ANY sequence of their operations here, `store` also under an id that is there
  already.  In the persistent one that leaves an index entry behind; `Covered` is what remains true.
-/
import Smppd.Lib.Rank
import Smppd.Store.Retention
import Smppd.Store.Trait

set_option linter.unusedVariables false

namespace Smppd.Store

open Table Machine

/-! ## The order of keys -/

/-- The id as `{}` prints it. -/
def MessageId.decimal (id : MessageId) : Key := digits id.val.toNat

theorem append_lt_append_left {l a b : Key} : l ++ a < l ++ b ↔ a < b := by
  induction l with
  | nil => exact Iff.rfl
  | cons c l ih =>
    rw [List.cons_append, List.cons_append, List.cons_lt_cons_iff, ih]
    simp only [lt_self_iff_false, true_and, false_or]

theorem msgKey_lt {a b : MessageId} : msgKey a < msgKey b ↔ a.decimal < b.decimal :=
  append_lt_append_left

theorem stateKey_lt {code : UInt8} {a b : MessageId} :
    stateKey code a < stateKey code b ↔ a.decimal < b.decimal :=
  append_lt_append_left

/-- A partition is walked in strictly increasing order. -/
theorem Partition.iter_sorted {V : Type} (p : Partition V) :
    p.iter.Pairwise fun a b => a.1 < b.1 := by
  have hle : p.iter.Pairwise fun a b => decide (a.1 ≤ b.1) = true := by
    refine List.pairwise_mergeSort (fun a b c hab hbc => ?_) (fun a b => ?_) p.entries
    · rw [decide_eq_true_eq] at *
      exact le_trans hab hbc
    · rw [Bool.or_eq_true, decide_eq_true_eq, decide_eq_true_eq]
      exact le_total a.1 b.1
  have hne : p.iter.Pairwise fun a b => a.1 ≠ b.1 := List.pairwise_map.mp p.iter_keys_nodup
  exact (hle.and hne).imp fun ⟨h, hne⟩ => lt_of_le_of_ne (of_decide_eq_true h) hne

/-! ## Scans of sorted contents -/

/-- The messages of `content` are in the order of their decimal ids. -/
def InKeyOrder (content : List StoredMessage) : Prop :=
  content.Pairwise fun a b => a.id.decimal < b.id.decimal

/-- How many messages that pass come before `m` in the order of decimal ids. -/
def placeOf (passes : StoredMessage → Bool) (content : List StoredMessage) (m : StoredMessage) : Nat :=
  content.countP fun b => passes b && decide (b.id.decimal < m.id.decimal)

theorem placeOf_le_length (passes : StoredMessage → Bool) (content : List StoredMessage) (m : StoredMessage) :
    placeOf passes content m ≤ content.length :=
  List.countP_le_length

theorem placeOf_lt_length (passes : StoredMessage → Bool) {content : List StoredMessage} {m : StoredMessage}
    (hm : m ∈ content) : placeOf passes content m < content.length := by
  refine Nat.lt_of_le_of_ne (placeOf_le_length passes content m) fun hall => ?_
  have hself := List.countP_eq_length.mp hall m hm
  rw [decide_eq_false (lt_irrefl _), Bool.and_false] at hself
  cases hself

/-- **What a truncated scan returns.** -/
theorem mem_scan_iff {passes : StoredMessage → Bool} {content : List StoredMessage}
    (h : InKeyOrder content) {limit : Nat} {m : StoredMessage} :
    m ∈ (content.filter passes).take limit ↔
      m ∈ content ∧ passes m = true ∧ placeOf passes content m < limit := by
  have hplace : ((content.filter passes).countP fun b => decide (b.id.decimal < m.id.decimal)) =
      placeOf passes content m := by
    rw [List.countP_filter, placeOf]
    simp only [Bool.and_comm]
  constructor
  · intro hm
    have hfilter := List.mem_of_mem_take hm
    obtain ⟨hin, hpass⟩ := List.mem_filter.mp hfilter
    have hlt := (Rank.mem_take_iff (List.Pairwise.filter _ h) hfilter limit).mp hm
    rw [hplace] at hlt
    exact ⟨hin, hpass, hlt⟩
  · rintro ⟨hin, hpass, hlt⟩
    have hfilter := List.mem_filter.mpr ⟨hin, hpass⟩
    rw [← hplace] at hlt
    exact (Rank.mem_take_iff (List.Pairwise.filter _ h) hfilter limit).mpr hlt

/-- What passes and is not among the first comes after everything that is. -/
theorem lt_of_scan {passes : StoredMessage → Bool} {content : List StoredMessage} {limit : Nat}
    {a b : StoredMessage} (ha : placeOf passes content a < limit) (hb : ¬ placeOf passes content b < limit) :
    a.id.decimal < b.id.decimal := by
  by_contra hle
  apply hb
  refine Nat.lt_of_le_of_lt (List.countP_mono_left fun c _ hc => ?_) ha
  rw [Bool.and_eq_true, decide_eq_true_eq] at hc ⊢
  exact ⟨hc.1, lt_of_lt_of_le hc.2 (not_lt.mp hle)⟩

theorem InKeyOrder.ids_nodup {content : List StoredMessage} (h : InKeyOrder content) :
    (content.map StoredMessage.id).Nodup := by
  refine List.pairwise_map.mpr (h.imp fun {a b} hlt heq => ?_)
  rw [heq] at hlt
  exact lt_irrefl _ hlt

/-- A scan meets no message twice. -/
theorem InKeyOrder.scan_ids_nodup {content : List StoredMessage} (h : InKeyOrder content)
    (passes : StoredMessage → Bool) (limit : Nat) :
    (((content.filter passes).take limit).map StoredMessage.id).Nodup := by
  have hsub : ((content.filter passes).take limit).Sublist content :=
    (List.take_sublist _ _).trans List.filter_sublist
  exact h.ids_nodup.sublist (hsub.map _)

/-! ## The persistent back end -/

namespace PersistentStorage

/-- The messages of the store as they read at `clock`, in the order of their keys. -/
def contents (clock : Clock) (s : PersistentStorage) : List StoredMessage :=
  s.messages.iter.map fun e => persistedToStored clock e.2

/-- The index has an entry for the message under the state. -/
def listedUnder (state : MessageState) (s : PersistentStorage) (m : StoredMessage) : Bool :=
  (s.messagesByState.lookup (stateKey state.code m.id)).isSome

/-- What is left of `Indexed` when `store` overwrites records.  It does not look for the record it
    overwrites, so the entry under the state of that record stays: a record is listed under its own state,
    and it may be listed under others.  A record that is being replaced is excepted. -/
structure CoversExcept (excepted : MessageId → Prop) (s : PersistentStorage) : Prop where
  keyed : ∀ key p, s.messages.lookup key = some p → key = msgKey ⟨p.id⟩
  coded : ∀ key p, s.messages.lookup key = some p → (MessageState.ofCode p.state).code = p.state
  entries : ∀ k v, s.messagesByState.lookup k = some v → ∃ c id, k = stateKey c id ∧ v = toBeBytes id.val
  listed : ∀ key p, s.messages.lookup key = some p → ¬ excepted ⟨p.id⟩ →
    s.messagesByState.lookup (stateKey p.state ⟨p.id⟩) = some (toBeBytes p.id)

/-- Every record is listed under its state. -/
def Covered (s : PersistentStorage) : Prop := CoversExcept (fun _ => False) s

theorem covered_empty : Covered empty where
  keyed := fun key p h => nomatch h
  coded := fun key p h => nomatch h
  entries := fun k v h => nomatch h
  listed := fun key p h => nomatch h

/-- Every record but the one of `id`. -/
theorem Covered.others {s : PersistentStorage} (h : Covered s) (id : MessageId) :
    CoversExcept (fun id' => id' = id) s :=
  { h with listed := fun key p hp _ => h.listed key p hp not_false }

/-! ### Its three moves -/

theorem CoversExcept.unlist {s : PersistentStorage} {id : MessageId}
    (h : CoversExcept (fun id' => id' = id) s) (state : MessageState) :
    CoversExcept (fun id' => id' = id) (s.removeStateIndex state id) where
  keyed := h.keyed
  coded := h.coded
  entries := by
    intro k v hk
    exact h.entries k v (lookup_erase_eq_some.mp hk).2
  listed := by
    intro key p hp hne
    have hother : stateKey p.state ⟨p.id⟩ ≠ stateKey state.code id := by
      intro hkey
      exact hne (stateKey_injective hkey).2
    exact (AList.lookup_erase_ne hother).trans (h.listed key p hp hne)

theorem CoversExcept.persist {s : PersistentStorage} {clock : Clock} {m : StoredMessage}
    (h : CoversExcept (fun id' => id' = m.id) s) : Covered (s.persistMessage clock m) := by
  refine ⟨?_, ?_, ?_, ?_⟩
  · intro key p hp
    rcases lookup_persist_eq_some.mp hp with ⟨rfl, rfl⟩ | ⟨-, hold⟩
    · rfl
    · exact h.keyed key p hold
  · intro key p hp
    rcases lookup_persist_eq_some.mp hp with ⟨-, rfl⟩ | ⟨-, hold⟩
    · exact congrArg MessageState.code (MessageState.ofCode_code m.state)
    · exact h.coded key p hold
  · intro k v hk
    rcases lookup_insert_eq_some.mp hk with ⟨hown, hv⟩ | ⟨-, hold⟩
    · exact ⟨m.state.code, m.id, hown, hv⟩
    · exact h.entries k v hold
  · intro key p hp _
    show (s.messagesByState.insert (stateKey m.state.code m.id) (toBeBytes m.id.val)).lookup _ = _
    rcases lookup_persist_eq_some.mp hp with ⟨-, rfl⟩ | ⟨hkey, hold⟩
    · exact AList.lookup_insert _
    · have hid : (⟨p.id⟩ : MessageId) ≠ m.id := by
        intro hsame
        apply hkey
        rw [h.keyed key p hold, hsame]
      have hother : stateKey p.state ⟨p.id⟩ ≠ stateKey m.state.code m.id := by
        intro hsame
        exact hid (stateKey_injective hsame).2
      rw [AList.lookup_insert_ne hother]
      exact h.listed key p hold hid

theorem CoversExcept.remove {s : PersistentStorage} {id : MessageId}
    (h : CoversExcept (fun id' => id' = id) s) : Covered (s.removeRecord (msgKey id)) := by
  have hrec : ∀ key p, (s.removeRecord (msgKey id)).messages.lookup key = some p →
      key ≠ msgKey id ∧ s.messages.lookup key = some p := fun key p => lookup_erase_eq_some.mp
  refine ⟨fun key p hp => h.keyed key p (hrec key p hp).2, fun key p hp => h.coded key p (hrec key p hp).2,
    h.entries, ?_⟩
  intro key p hp _
  obtain ⟨hkey, hold⟩ := hrec key p hp
  refine h.listed key p hold fun hsame => hkey ?_
  rw [h.keyed key p hold, hsame]

/-! ### The operations -/

theorem covered_update {s : PersistentStorage} (h : Covered s) (clock : Clock) (id : MessageId)
    (f : Keeping) : Covered (s.update clock id f.apply).1 := by
  unfold update loadMessage
  cases hl : s.messages.lookup (msgKey id) with
  | none => exact h
  | some p =>
    have hid : (f.apply (persistedToStored clock p)).id = id :=
      (f.keepsId _).trans (msgKey_injective (h.keyed _ p hl)).symm
    have hothers := h.others (f.apply (persistedToStored clock p)).id
    simp only [Option.map_some]
    split
    · rw [← hid]
      exact (hothers.unlist _).persist
    · exact hothers.persist

theorem covered_delete {s : PersistentStorage} (h : Covered s) (clock : Clock) (id : MessageId) :
    Covered (s.delete clock id).1 := by
  unfold delete
  cases s.loadMessage clock id with
  | none => exact h
  | some m => exact ((h.others id).unlist m.state).remove

theorem covered_expireOld {s : PersistentStorage} (h : Covered s) (clock : Clock) (ttl : Duration) :
    Covered (s.expireOld clock ttl).1 := by
  refine List.foldlRecOn _ _ h fun s h e _ => ?_
  unfold expireRecord
  split
  · exact ((h.others ⟨e.2.id⟩).unlist .pending).persist
  · exact h

/-- A record after an update stood there before it, or is what the update has made of the record there. -/
theorem Covered.lookup_of_update {s : PersistentStorage} (h : Covered s) {clock : Clock} {id : MessageId}
    {f : StoredMessage → StoredMessage} (hf : ∀ m, (f m).id = m.id) {key : Key} {p : PersistedMessage}
    (hp : (s.update clock id f).1.messages.lookup key = some p) :
    s.messages.lookup key = some p ∨ ∃ p₀, s.messages.lookup key = some p₀ ∧
      p = toPersisted clock (f (persistedToStored clock p₀)) := by
  unfold update loadMessage at hp
  cases hl : s.messages.lookup (msgKey id) with
  | none =>
    rw [hl] at hp
    exact Or.inl hp
  | some p₀ =>
    rw [hl] at hp
    have hmessages : ∀ (b : Prop) [Decidable b] (state : MessageState),
        (if b then s.removeStateIndex state id else s).messages = s.messages := by
      intro b _ state
      split <;> rfl
    rcases lookup_persist_eq_some.mp hp with ⟨hkey, hnew⟩ | ⟨-, hold⟩
    · -- the closure keeps the id, so the record goes where it came from
      have hid : (⟨p₀.id⟩ : MessageId) = id := (msgKey_injective (h.keyed _ p₀ hl)).symm
      refine Or.inr ⟨p₀, ?_, hnew⟩
      rw [hkey, hf]
      show s.messages.lookup (msgKey ⟨p₀.id⟩) = some p₀
      rw [hid]
      exact hl
    · rw [hmessages] at hold
      exact Or.inl hold

/-- What an update makes of the record it is for. -/
theorem lookup_update_self {s : PersistentStorage} (clock : Clock) {f : StoredMessage → StoredMessage}
    (hf : ∀ m, (f m).id = m.id) {p : PersistedMessage} (hp : s.messages.lookup (msgKey ⟨p.id⟩) = some p) :
    (s.update clock ⟨p.id⟩ f).1.messages.lookup (msgKey ⟨p.id⟩) =
      some (toPersisted clock (f (persistedToStored clock p))) := by
  unfold update loadMessage
  rw [hp]
  show (AList.insert (msgKey (f (persistedToStored clock p)).id) _ _).lookup _ = _
  rw [hf]
  exact AList.lookup_insert _

/-- What is there after a pruning was there before. -/
theorem lookup_of_pruneTerminal {s : PersistentStorage} {clock : Clock} {maxAge : Duration} {key : Key}
    {p : PersistedMessage} (hp : (s.pruneTerminal clock maxAge).1.messages.lookup key = some p) :
    s.messages.lookup key = some p := by
  have hwalk : ∀ (l : List (Key × MessageId × MessageState)) (t : PersistentStorage),
      (l.foldl (fun t d => (t.removeStateIndex d.2.2 d.2.1).removeRecord d.1) t).messages.lookup key = some p →
        t.messages.lookup key = some p := by
    intro l
    induction l with
    | nil => exact fun t ht => ht
    | cons d l ih =>
      intro t ht
      exact (lookup_erase_eq_some.mp (ih _ ht)).2
  exact hwalk _ s hp

theorem covered_pruneTerminal {s : PersistentStorage} (h : Covered s) (clock : Clock) (maxAge : Duration) :
    Covered (s.pruneTerminal clock maxAge).1 := by
  have hkey : ∀ d ∈ s.toDelete clock maxAge, d.1 = msgKey d.2.1 := by
    intro d hd
    obtain ⟨e, he, hout⟩ := List.mem_filterMap.mp hd
    obtain ⟨state, -, rfl⟩ := Option.map_eq_some_iff.mp hout
    exact h.keyed _ _ (Partition.mem_iter.mp he)
  refine List.foldlRecOn _ _ h fun s h d hd => ?_
  rw [hkey d hd]
  exact ((h.others d.2.1).unlist d.2.2).remove

/-- One operation, whatever the state. -/
def perform (s : PersistentStorage) : Op → PersistentStorage
  | .store clock message => s.store clock message
  | .update clock id f => (s.update clock id f.apply).1
  | .delete clock id => (s.delete clock id).1
  | .expireOld clock ttl => (s.expireOld clock ttl).1
  | .pruneTerminal clock maxAge => (s.pruneTerminal clock maxAge).1

/-- The step of the machine that performs operations. -/
def performing (s : PersistentStorage) (op : Op) : Option PersistentStorage := some (s.perform op)

theorem covered_perform {s : PersistentStorage} (h : Covered s) (op : Op) : Covered (s.perform op) := by
  cases op with
  | store clock message => exact (h.others message.id).persist
  | update clock id f => exact covered_update h clock id f
  | delete clock id => exact covered_delete h clock id
  | expireOld clock ttl => exact covered_expireOld h clock ttl
  | pruneTerminal clock maxAge => exact covered_pruneTerminal h clock maxAge

/-- In every keyspace reached, each record is listed under its state. -/
theorem run_covered {ops : List Op} {s : PersistentStorage} (hrun : run performing empty ops = some s) :
    Covered s := by
  refine run_inv (fun s op s' h hstep => ?_) covered_empty hrun
  obtain rfl := Option.some.inj hstep
  exact covered_perform h op

/-! ### Reading -/

theorem Covered.mem_contents {s : PersistentStorage} (h : Covered s) {clock : Clock} {m : StoredMessage} :
    m ∈ s.contents clock ↔
      ∃ p, s.messages.lookup (msgKey ⟨p.id⟩) = some p ∧ m = persistedToStored clock p := by
  constructor
  · intro hm
    obtain ⟨e, he, rfl⟩ := List.mem_map.mp hm
    have hlookup := Partition.mem_iter.mp he
    refine ⟨e.2, ?_, rfl⟩
    rw [← h.keyed _ _ hlookup]
    exact hlookup
  · rintro ⟨p, hp, rfl⟩
    exact List.mem_map.mpr ⟨⟨_, p⟩, Partition.mem_iter.mpr hp, rfl⟩

/-- The contents are what `get` finds. -/
theorem Covered.get_eq_some_iff {s : PersistentStorage} (h : Covered s) {clock : Clock} {id : MessageId}
    {m : StoredMessage} : s.get clock id = some m ↔ m ∈ s.contents clock ∧ m.id = id := by
  rw [h.mem_contents]
  constructor
  · intro hget
    obtain ⟨p, hp, rfl⟩ := Option.map_eq_some_iff.mp hget
    have hid : id = ⟨p.id⟩ := msgKey_injective (h.keyed _ p hp)
    rw [hid] at hp
    exact ⟨⟨p, hp, rfl⟩, hid.symm⟩
  · rintro ⟨⟨p, hp, rfl⟩, rfl⟩
    exact Option.map_eq_some_iff.mpr ⟨p, hp, rfl⟩

/-- The message as it comes back when it is written at `clock` and read at `clock'`. -/
def reload (clock clock' : Clock) (m : StoredMessage) : StoredMessage :=
  persistedToStored clock' (toPersisted clock m)

theorem get_persist (clock clock' : Clock) (m : StoredMessage) (s : PersistentStorage) (id : MessageId) :
    (s.persistMessage clock m).get clock' id =
      if id = m.id then some (reload clock clock' m) else s.get clock' id := by
  show ((s.messages.insert (msgKey m.id) (toPersisted clock m)).lookup (msgKey id)).map _ = _
  by_cases hid : id = m.id
  · rw [hid, AList.lookup_insert, if_pos rfl]
    rfl
  · rw [AList.lookup_insert_ne fun hkey => hid (msgKey_injective hkey), if_neg hid]
    rfl

theorem Covered.get_update {s : PersistentStorage} (h : Covered s) (clock clock' : Clock) (id : MessageId)
    (f : Keeping) (id' : MessageId) :
    (s.update clock id f.apply).1.get clock' id' =
      if id' = id then (s.get clock id).map fun m => reload clock clock' (f.apply m)
      else s.get clock' id' := by
  unfold update get
  cases hl : s.loadMessage clock id with
  | none =>
    by_cases hid : id' = id
    · rw [if_pos hid, hid]
      exact Option.map_eq_none_iff.mpr (Option.map_eq_none_iff.mp hl)
    · rw [if_neg hid]
  | some m =>
    have hfid : (f.apply m).id = id := (f.keepsId m).trans (h.get_eq_some_iff.mp hl).2
    simp only [Option.map_some]
    split
    · exact (get_persist ..).trans (by rw [hfid]; rfl)
    · exact (get_persist ..).trans (by rw [hfid]; rfl)

theorem length_contents (clock : Clock) (s : PersistentStorage) :
    (s.contents clock).length = s.messages.entries.length := by
  rw [contents, List.length_map, Partition.iter, List.length_mergeSort]

/-- In a store of at most `limit` records every message has its place within the limit. -/
theorem placeOf_lt (passes : StoredMessage → Bool) {s : PersistentStorage} {clock : Clock} {m : StoredMessage}
    (hm : m ∈ s.contents clock) {limit : Nat} (hroom : s.messages.entries.length ≤ limit) :
    placeOf passes (s.contents clock) m < limit := by
  refine Nat.lt_of_lt_of_le (placeOf_lt_length passes hm) ?_
  rw [length_contents]
  exact hroom

theorem Covered.contents_inKeyOrder {s : PersistentStorage} (h : Covered s) (clock : Clock) :
    InKeyOrder (s.contents clock) := by
  refine List.pairwise_map.mpr (s.messages.iter_sorted.imp_of_mem fun {a b} ha hb hlt => ?_)
  rw [h.keyed _ _ (Partition.mem_iter.mp ha), h.keyed _ _ (Partition.mem_iter.mp hb), msgKey_lt] at hlt
  exact hlt

/-- A stored message is listed under its state. -/
theorem Covered.listedUnder {s : PersistentStorage} (h : Covered s) {clock : Clock} {state : MessageState}
    {m : StoredMessage} (hm : m ∈ s.contents clock) (hstate : m.state = state) :
    s.listedUnder state m = true := by
  subst hstate
  obtain ⟨p, hp, rfl⟩ := h.mem_contents.mp hm
  have hlisted := h.listed _ p hp not_false
  unfold PersistentStorage.listedUnder
  show (s.messagesByState.lookup (stateKey (MessageState.ofCode p.state).code ⟨p.id⟩)).isSome = true
  rw [h.coded _ p hp, hlisted]
  rfl

/-- An index that is in step lists every record. -/
theorem Indexed.covered {s : PersistentStorage} (h : Indexed s) : Covered s where
  keyed := h.keyed
  coded := h.coded
  entries := by
    intro k v hk
    obtain ⟨key, p, -, hentry⟩ := (h.index k v).mp hk
    obtain ⟨rfl, rfl⟩ := Prod.mk.inj hentry
    exact ⟨p.state, ⟨p.id⟩, rfl, rfl⟩
  listed := fun key p hp _ => (h.index _ _).mpr ⟨key, p, hp, rfl⟩

/-- It lists it under no other state. -/
theorem Indexed.listedUnder_eq {s : PersistentStorage} (h : Indexed s) {clock : Clock} {m : StoredMessage}
    (hm : m ∈ s.contents clock) {state : MessageState} : s.listedUnder state m = decide (m.state = state) := by
  by_cases hstate : m.state = state
  · rw [h.covered.listedUnder hm hstate, decide_eq_true hstate]
  · rw [decide_eq_false hstate, Bool.eq_false_iff]
    intro hlisted
    obtain ⟨v, hv⟩ := Option.isSome_iff_exists.mp hlisted
    obtain ⟨key, p, hp, hentry⟩ := (h.index _ v).mp hv
    obtain ⟨hcode, hid⟩ := stateKey_injective (Prod.mk.inj hentry).1
    obtain ⟨p', hp', rfl⟩ := h.covered.mem_contents.mp hm
    obtain rfl := h.unique hp hp' (congrArg MessageId.val hid)
    apply hstate
    show MessageState.ofCode p.state = state
    rw [hcode, MessageState.ofCode_code]

/-- An index entry under a state's prefix belongs to an id, and the walk loads what is stored there. -/
theorem Covered.entry {s : PersistentStorage} (h : Covered s) {state : MessageState}
    {e : Sigma fun _ : Key => List UInt8}
    (he : e ∈ s.messagesByState.startingWith (statePrefix state.code)) (clock : Clock) :
    ∃ id, e.1 = stateKey state.code id ∧ s.indexed clock e.2 = s.get clock id := by
  obtain ⟨hin, hpre⟩ := List.mem_filter.mp he
  obtain ⟨c, id, hkey, hv⟩ := h.entries e.1 e.2 (Partition.mem_iter.mp hin)
  rw [hkey, statePrefix_isPrefixOf] at hpre
  refine ⟨id, by rw [hkey, hpre], ?_⟩
  rw [hv, indexed, if_pos (length_toBeBytes id.val), fromBeBytes_toBeBytes]
  rfl

theorem Covered.mem_inState {s : PersistentStorage} (h : Covered s) {clock : Clock} {state : MessageState}
    {m : StoredMessage} :
    m ∈ s.inState clock state ↔ m ∈ s.contents clock ∧ s.listedUnder state m = true := by
  constructor
  · intro hm
    obtain ⟨e, he, hix⟩ := List.mem_filterMap.mp hm
    obtain ⟨id, hkey, hload⟩ := h.entry he clock
    obtain ⟨hin, hid⟩ := h.get_eq_some_iff.mp (hload.symm.trans hix)
    refine ⟨hin, ?_⟩
    have hlookup := Partition.mem_iter.mp (List.mem_of_mem_filter he)
    rw [PersistentStorage.listedUnder, hid, ← hkey, hlookup]
    rfl
  · rintro ⟨hin, hlisted⟩
    obtain ⟨v, hv⟩ := Option.isSome_iff_exists.mp hlisted
    have he : (⟨stateKey state.code m.id, v⟩ : Sigma fun _ : Key => List UInt8)
        ∈ s.messagesByState.startingWith (statePrefix state.code) :=
      List.mem_filter.mpr ⟨Partition.mem_iter.mpr hv, statePrefix_isPrefixOf.mpr rfl⟩
    obtain ⟨id, hkey, hload⟩ := h.entry he clock
    have hid : m.id = id := (stateKey_injective hkey).2
    exact List.mem_filterMap.mpr ⟨_, he, hload.trans (h.get_eq_some_iff.mpr ⟨hin, hid⟩)⟩

/-- The index lists the messages of a state in the order of their decimal ids. -/
theorem Covered.inState_inKeyOrder {s : PersistentStorage} (h : Covered s) (clock : Clock)
    (state : MessageState) : InKeyOrder (s.inState clock state) := by
  have hsorted : (s.messagesByState.startingWith (statePrefix state.code)).Pairwise
      fun a b => a.1 < b.1 := List.Pairwise.filter _ s.messagesByState.iter_sorted
  refine List.pairwise_filterMap.mpr (hsorted.imp_of_mem fun {a b} ha hb hlt m hm m' hm' => ?_)
  obtain ⟨id, hkey, hload⟩ := h.entry ha clock
  obtain ⟨id', hkey', hload'⟩ := h.entry hb clock
  rw [(h.get_eq_some_iff.mp (hload.symm.trans hm)).2, (h.get_eq_some_iff.mp (hload'.symm.trans hm')).2]
  rw [hkey, hkey', stateKey_lt] at hlt
  exact hlt

/-- **A walk of the state index** is the contents filtered by what is listed, cut off at the limit. -/
theorem Covered.getByState_eq_take {s : PersistentStorage} (h : Covered s) (clock : Clock)
    (state : MessageState) (limit : Nat) :
    s.getByState clock state limit = ((s.contents clock).filter (s.listedUnder state)).take limit := by
  have hordered := h.inState_inKeyOrder clock state
  have hordered' : InKeyOrder ((s.contents clock).filter (s.listedUnder state)) :=
    List.Pairwise.filter _ (h.contents_inKeyOrder clock)
  -- two lists in strict order with the same members are one list
  have hperm : (s.inState clock state).Perm ((s.contents clock).filter (s.listedUnder state)) := by
    refine (List.perm_ext_iff_of_nodup hordered.ids_nodup.of_map hordered'.ids_nodup.of_map).mpr fun m => ?_
    rw [h.mem_inState, List.mem_filter]
  rw [getByState_eq,
    hperm.eq_of_pairwise (fun a b _ _ hab hba => absurd hab (lt_asymm hba)) hordered hordered']

/-- Which messages a walk returns. -/
theorem Covered.mem_getByState {s : PersistentStorage} (h : Covered s) {clock : Clock}
    {state : MessageState} {limit : Nat} {m : StoredMessage} :
    m ∈ s.getByState clock state limit ↔ m ∈ s.contents clock ∧ s.listedUnder state m = true ∧
      placeOf (s.listedUnder state) (s.contents clock) m < limit := by
  rw [h.getByState_eq_take, mem_scan_iff (h.contents_inKeyOrder clock)]

theorem Covered.getByState_ids_nodup {s : PersistentStorage} (h : Covered s) (clock : Clock)
    (state : MessageState) (limit : Nat) :
    ((s.getByState clock state limit).map StoredMessage.id).Nodup := by
  rw [h.getByState_eq_take]
  exact (h.contents_inKeyOrder clock).scan_ids_nodup _ limit

end PersistentStorage

/-! ## The in-memory back end -/

namespace MemoryStorage

/-- The messages of the store. -/
def contents (s : MemoryStorage) : List StoredMessage := s.messages.entries.map fun e => e.2

theorem mem_contents {s : MemoryStorage} {m : StoredMessage} :
    m ∈ s.contents ↔ ∃ id, s.get id = some m := by
  constructor
  · intro hm
    obtain ⟨⟨id, m'⟩, he, rfl⟩ := List.mem_map.mp hm
    exact ⟨id, mem_entries.mp he⟩
  · rintro ⟨id, hget⟩
    exact List.mem_map.mpr ⟨⟨id, m⟩, mem_entries.mpr hget, rfl⟩

/-- Whatever the order of a walk, it meets the contents. -/
theorem arrange_perm_contents (order : IterOrder Entry) (s : MemoryStorage) :
    ((order.arrange s.messages.entries).map fun e => e.2).Perm s.contents :=
  (order.perm s.messages.entries).map _

theorem Keyed.contents_ids_nodup {s : MemoryStorage} (h : Keyed s) :
    (s.contents.map StoredMessage.id).Nodup := by
  have hkeys : s.contents.map StoredMessage.id = s.messages.entries.map Sigma.fst := by
    unfold contents
    rw [List.map_map]
    exact List.map_congr_left fun e he => h e.1 e.2 (mem_entries.mp he)
  rw [hkeys]
  exact s.messages.nodupKeys

/-- The ids a walk meets are distinct, in whatever order. -/
theorem Keyed.arranged_ids_nodup {s : MemoryStorage} (h : Keyed s) (order : IterOrder Entry) :
    (((order.arrange s.messages.entries).map fun e => e.2).map StoredMessage.id).Nodup :=
  ((arrange_perm_contents order s).map StoredMessage.id).nodup_iff.mpr h.contents_ids_nodup

/-! ## Every sequence of operations -/

/-- One operation, whatever the state. -/
def perform (s : MemoryStorage) : Retention.Op → MemoryStorage
  | .store order message => s.store order message
  | .update id f => (s.update id f).1
  | .delete id => (s.delete id).1
  | .expireOld clock ttl => (s.expireOld clock ttl).1
  | .pruneTerminal clock maxAge => (s.pruneTerminal clock maxAge).1

/-- The step of the machine that performs operations. -/
def performing (s : MemoryStorage) (op : Retention.Op) : Option MemoryStorage := some (s.perform op)

theorem run_performing (ops : List Retention.Op) (s : MemoryStorage) :
    run performing s ops = some (ops.foldl perform s) := by
  induction ops generalizing s with
  | nil => rfl
  | cons op ops ih => exact ih (s.perform op)

/-- A closure that is passed to `update` keeps the message id, as every closure of the gateway does. -/
def KeepsId : Retention.Op → Prop
  | .update _ f => ∀ m, (f m).id = m.id
  | _ => True

theorem keyed_perform {s : MemoryStorage} (h : Keyed s) {op : Retention.Op} (hid : KeepsId op) :
    Keyed (s.perform op) := by
  cases op with
  | store order message => exact keyed_store h order message
  | update id f => exact keyed_update h id hid
  | delete id =>
    intro id' m hget
    change (s.delete id).1.get id' = some m at hget
    rw [get_delete] at hget
    split at hget
    · cases hget
    · exact h id' m hget
  | expireOld clock ttl => exact keyed_expireOld h clock ttl
  | pruneTerminal clock maxAge => exact keyed_pruneTerminal h clock maxAge

/-- In every store reached, each message stands under its own id. -/
theorem run_keyed {config : MemoryStoreConfig} {ops : List Retention.Op} {s : MemoryStorage}
    (hids : ∀ op ∈ ops, KeepsId op) (hrun : run performing (withConfig config) ops = some s) : Keyed s := by
  have hkept : ∀ (s : MemoryStorage) op s', Keyed s → KeepsId op → performing s op = some s' → Keyed s' := by
    intro s op s' h hid hstep
    obtain rfl := Option.some.inj hstep
    exact keyed_perform h hid
  have hempty : Keyed (withConfig config) := fun id m hget => nomatch hget
  exact meets_inv hkept hempty (meets_of_forall hids _) hrun

end MemoryStorage

end Smppd.Store
