/-
  The `Storage` TRAIT (`src/store/mod.rs`): the message operations the processors use, as a class
  with the two back ends as its instances.

  The processors are written against the trait, so their model is generic in the storage.  What
  their proofs may use of a back end is in `LawfulStorage`: a record is found under its own id, and
  no operation makes a record appear under an id it was not given.
-/
import Smppd.Store.Memory
import Smppd.Store.StateIndex

set_option linter.unusedVariables false

namespace Smppd.Store

open Table

/-- What one storage call reads from its surroundings: the clocks, and the order in which a hash map
    happens to be walked. -/
structure StoreEnv where
  clock : Clock
  order : IterOrder Entry

/-- The message operations of the trait. -/
class Storage (S : Type) where
  store : StoreEnv → StoredMessage → S → S
  get : StoreEnv → MessageId → S → Option StoredMessage
  update : StoreEnv → MessageId → (StoredMessage → StoredMessage) → S → S × Bool
  query : StoreEnv → MessageQuery → S → List StoredMessage
  getReadyForRetry : StoreEnv → S → List StoredMessage

instance : Storage MemoryStorage where
  store env m s := s.store env.order m
  get _ id s := s.get id
  update _ id f s := s.update id f
  query env q s := s.query env.order q
  getReadyForRetry env s := s.getReadyForRetry env.order env.clock

instance : Storage PersistentStorage where
  store env m s := s.store env.clock m
  get env id s := s.get env.clock id
  update env id f s := s.update env.clock id f
  query env q s := s.query env.clock q
  getReadyForRetry env s := s.getReadyForRetry env.clock

/-- There is no record under the id, whenever one looks. -/
def Absent {S : Type} [Storage S] (s : S) (id : MessageId) : Prop :=
  ∀ env, Storage.get env id s = none

/-- What the processors rely on. -/
class LawfulStorage (S : Type) [Storage S] where
  /-- The storage as it is created. -/
  created : S → Prop
  /-- The shape every operation keeps. -/
  WF : S → Prop
  wf_created : ∀ s, created s → WF s
  wf_store : ∀ env m (s : S), WF s → WF (Storage.store env m s)
  wf_update : ∀ env id f (s : S), (∀ m, (f m).id = m.id) → WF s → WF (Storage.update env id f s).1
  /-- A record is found under its own id. -/
  get_id : ∀ env id (s : S) m, WF s → Storage.get env id s = some m → m.id = id
  absent_created : ∀ (s : S) id, created s → Absent s id
  absent_store : ∀ env m (s : S) id, id ≠ m.id → Absent s id → Absent (Storage.store env m s) id
  absent_update : ∀ env id' f (s : S) id, (∀ m, (f m).id = m.id) → WF s → Absent s id →
    Absent (Storage.update env id' f s).1 id

/-! ## The in-memory back end -/

namespace MemoryStorage

/-- A message stands under its own id. -/
def Keyed (s : MemoryStorage) : Prop := ∀ id m, s.get id = some m → m.id = id

theorem keyed_store {s : MemoryStorage} (h : Keyed s) (order : IterOrder Entry)
    (message : StoredMessage) : Keyed (s.store order message) := by
  intro id m hget
  rw [get_store] at hget
  split at hget
  · rename_i hid
    cases hget
    exact hid.symm
  · split at hget
    · cases hget
    · exact h id m hget

theorem keyed_update {s : MemoryStorage} (h : Keyed s) (id' : MessageId)
    {f : StoredMessage → StoredMessage} (hf : ∀ m, (f m).id = m.id) : Keyed (s.update id' f).1 := by
  intro id m hget
  rw [get_update] at hget
  split at hget
  · obtain ⟨m₀, hm₀, rfl⟩ := Option.map_eq_some_iff.mp hget
    rw [hf]
    exact h id m₀ hm₀
  · exact h id m hget

theorem keyed_expireOld {s : MemoryStorage} (h : Keyed s) (clock : Clock) (ttl : Duration) :
    Keyed (s.expireOld clock ttl).1 := by
  intro id m hget
  rw [get_expireOld] at hget
  obtain ⟨m₀, hm₀, rfl⟩ := Option.map_eq_some_iff.mp hget
  have hid : (expireOne clock ttl m₀).id = m₀.id := by
    unfold expireOne
    split <;> rfl
  rw [hid]
  exact h id m₀ hm₀

theorem keyed_pruneTerminal {s : MemoryStorage} (h : Keyed s) (clock : Clock) (maxAge : Duration) :
    Keyed (s.pruneTerminal clock maxAge).1 := by
  intro id m hget
  rw [get_pruneTerminal] at hget
  split at hget
  · cases hget
  · exact h id m hget

end MemoryStorage

instance : LawfulStorage MemoryStorage where
  created s := ∃ config, s = MemoryStorage.withConfig config
  WF := MemoryStorage.Keyed
  wf_created := by
    rintro s ⟨config, rfl⟩ id m hget
    cases hget
  wf_store env m s h := MemoryStorage.keyed_store h env.order m
  wf_update env id f s hf h := MemoryStorage.keyed_update h id hf
  get_id env id s m h hget := h id m hget
  absent_created := by
    rintro s id ⟨config, rfl⟩ env
    rfl
  absent_store := by
    intro env m s id hne habs env'
    show (s.store env.order m).get id = none
    rw [MemoryStorage.get_store, if_neg hne]
    split
    · rfl
    · exact habs env'
  absent_update := by
    intro env id' f s id hf h habs env'
    have hnone : s.get id = none := habs env'
    show (s.update id' f).1.get id = none
    rw [MemoryStorage.get_update, hnone]
    split <;> rfl

/-! ## The persistent back end -/

namespace PersistentStorage

/-- A record stands under the key of its own id. -/
def Keyed (s : PersistentStorage) : Prop :=
  ∀ key p, s.messages.lookup key = some p → key = msgKey ⟨p.id⟩

theorem keyed_persist {s : PersistentStorage} (h : Keyed s) (clock : Clock) (m : StoredMessage) :
    Keyed (s.persistMessage clock m) := by
  intro key p hp
  rcases lookup_persist_eq_some.mp hp with ⟨rfl, rfl⟩ | ⟨-, hold⟩
  · rfl
  · exact h key p hold

theorem keyed_update {s : PersistentStorage} (h : Keyed s) (clock : Clock) (id : MessageId)
    (f : StoredMessage → StoredMessage) : Keyed (s.update clock id f).1 := by
  unfold update
  split
  · refine keyed_persist ?_ clock _
    split <;> exact h
  · exact h

/-- Persisting leaves every other id as it was. -/
theorem absent_persist {s : PersistentStorage} {id : MessageId} (clock : Clock) {m : StoredMessage}
    (hne : id ≠ m.id) (habs : s.messages.lookup (msgKey id) = none) :
    (s.persistMessage clock m).messages.lookup (msgKey id) = none := by
  show (s.messages.insert (msgKey m.id) (toPersisted clock m)).lookup (msgKey id) = none
  rw [AList.lookup_insert_ne fun hk => hne (msgKey_injective hk)]
  exact habs

theorem absent_iff {s : PersistentStorage} {id : MessageId} :
    Absent s id ↔ s.messages.lookup (msgKey id) = none := by
  constructor
  · intro h
    exact Option.map_eq_none_iff.mp (h ⟨⟨0, 0⟩, .listed⟩)
  · intro h env
    show (s.messages.lookup (msgKey id)).map _ = none
    rw [h]
    rfl

end PersistentStorage

instance : LawfulStorage PersistentStorage where
  created s := s = PersistentStorage.empty
  WF := PersistentStorage.Keyed
  wf_created := by
    rintro s rfl
    exact PersistentStorage.indexed_empty.keyed
  wf_store env m s h := PersistentStorage.keyed_persist h env.clock m
  wf_update env id f s hf h := PersistentStorage.keyed_update h env.clock id f
  get_id := by
    intro env id s m h hget
    obtain ⟨p, hp, rfl⟩ := Option.map_eq_some_iff.mp hget
    exact (msgKey_injective (h _ p hp)).symm
  absent_created := by
    rintro s id rfl
    exact PersistentStorage.absent_iff.mpr rfl
  absent_store := by
    intro env m s id hne habs
    exact PersistentStorage.absent_iff.mpr
      (PersistentStorage.absent_persist env.clock hne (PersistentStorage.absent_iff.mp habs))
  absent_update := by
    intro env id' f s id hf h habs
    rw [PersistentStorage.absent_iff] at habs ⊢
    show (s.update env.clock id' f).1.messages.lookup (msgKey id) = none
    unfold PersistentStorage.update
    cases hl : s.loadMessage env.clock id' with
    | none => exact habs
    | some msg =>
      obtain ⟨p, hp, rfl⟩ := Option.map_eq_some_iff.mp hl
      have hid' : id' = ⟨p.id⟩ := msgKey_injective (h _ p hp)
      refine PersistentStorage.absent_persist env.clock ?_ ?_
      · -- the record that is rewritten is there, the one asked for is not
        rw [hf]
        rintro rfl
        have hp' : s.messages.lookup (msgKey ⟨p.id⟩) = some p := by
          rw [← hid']
          exact hp
        exact nomatch habs.symm.trans hp'
      · split <;> exact habs

end Smppd.Store
