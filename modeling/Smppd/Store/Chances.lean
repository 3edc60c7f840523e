/-
  The CHANCES of a message: what the processors look at before they try it again.

  They are the attempts it has had and may have, its time to live and its birth.  `retry_message` and `process_request`
  read them from the storage after they have written to it; what they find is what was there before, in both back
  ends, but for the birth.  In memory a message keeps it, and on disk it is born again with every read.  That is
  `ChanceStorage.since`.
-/
import Smppd.Store.Contents

set_option linter.unusedVariables false

namespace Smppd.Store

/-- What a message is retried by. -/
structure Chances where
  attempts : UInt32
  maxAttempts : UInt32
  ttl : Duration
  createdAt : Instant

/-- The chances of a message. -/
def StoredMessage.chances (m : StoredMessage) : Chances := ⟨m.attempts, m.maxAttempts, m.ttl, m.createdAt⟩

/-- A closure that leaves them. -/
structure KeepsChances (f : StoredMessage → StoredMessage) : Prop where
  id : ∀ m, (f m).id = m.id
  chances : ∀ m, (f m).chances = m.chances

/-- The message is in the state, whenever one looks. -/
def HasState {S : Type} [Storage S] (id : MessageId) (state : MessageState) (s : S) : Prop :=
  ∀ env, ∃ m, Storage.get env id s = some m ∧ m.state = state

theorem HasState.unique {S : Type} [Storage S] {id : MessageId} {state state' : MessageState} {s : S}
    (h : HasState id state s) (h' : HasState id state' s) : state = state' := by
  obtain ⟨m, hget, rfl⟩ := h ⟨⟨0, 0⟩, .listed⟩
  obtain ⟨m', hget', rfl⟩ := h' ⟨⟨0, 0⟩, .listed⟩
  rw [hget] at hget'
  rw [Option.some.inj hget']

/-- A storage in which a task finds the chances it has left, as long as it is the only one to write the record. -/
class ChanceStorage (S : Type) [Storage S] where
  /-- When a message born then seems to have been born, to one who reads it now. -/
  since : Instant → Clock → Instant
  /-- A message with these chances is under the id. -/
  Holds : S → MessageId → Chances → Prop
  /-- Times to live are kept in seconds. -/
  holds_store : ∀ env m (s : S) (secs : UInt64), m.ttl = fromSecs secs.toNat →
    Holds (Storage.store env m s) m.id m.chances
  holds_update : ∀ env id f (s : S) c, KeepsChances f → Holds s id c → Holds (Storage.update env id f s).1 id c
  get_of_holds : ∀ env id (s : S) c, Holds s id c →
    ∃ m, Storage.get env id s = some m ∧ m.chances = { c with createdAt := since c.createdAt env.clock }
  state_update : ∀ env id f (s : S) c state, (∀ m, (f m).id = m.id) → (∀ m, (f m).state = state) →
    Holds s id c → HasState id state (Storage.update env id f s).1

instance : ChanceStorage MemoryStorage where
  since createdAt _ := createdAt
  Holds s id c := ∃ m, s.get id = some m ∧ m.chances = c
  holds_store env m s secs h := ⟨m, MemoryStorage.get_store_self env.order m s, rfl⟩
  holds_update := by
    rintro env id f s c hf ⟨m, hget, rfl⟩
    refine ⟨f m, ?_, hf.chances m⟩
    show (s.update id f).1.get id = some (f m)
    rw [MemoryStorage.get_update, if_pos rfl, hget]
    rfl
  get_of_holds env id s c h := h
  state_update := by
    rintro env id f s c state hid hstate ⟨m, hget, -⟩ env'
    refine ⟨f m, ?_, hstate m⟩
    show (s.update id f).1.get id = some (f m)
    rw [MemoryStorage.get_update, if_pos rfl, hget]
    rfl

/-- What is written to disk of a time in whole seconds is read back. -/
theorem ttl_persisted (secs : UInt64) :
    fromSecs (UInt64.ofNat (fromSecs secs.toNat / 1000000000)).toNat = fromSecs secs.toNat := by
  have hwhole : fromSecs secs.toNat / 1000000000 = secs.toNat := Nat.mul_div_cancel _ (by decide)
  rw [hwhole, UInt64.ofNat_toNat]

instance : ChanceStorage PersistentStorage where
  since _ clock := clock.now
  Holds s id c := ∃ p, s.messages.lookup (msgKey ⟨p.id⟩) = some p ∧ id = ⟨p.id⟩ ∧
    { c with createdAt := 0 } = (persistedToStored ⟨0, 0⟩ p).chances
  holds_store := by
    intro env m s secs httl
    refine ⟨toPersisted env.clock m, AList.lookup_insert _, rfl, ?_⟩
    show Chances.mk m.attempts m.maxAttempts m.ttl 0 =
      ⟨m.attempts, m.maxAttempts, fromSecs (UInt64.ofNat (m.ttl / 1000000000)).toNat, 0⟩
    rw [httl, ttl_persisted]
  holds_update := by
    rintro env id f s c hf ⟨p, hp, rfl, hchances⟩
    have hstored := PersistentStorage.lookup_update_self env.clock hf.id hp
    have hid : (toPersisted env.clock (f (persistedToStored env.clock p))).id = p.id :=
      congrArg MessageId.val (hf.id (persistedToStored env.clock p))
    have hsame : (f (persistedToStored env.clock p)).chances = (persistedToStored env.clock p).chances := hf.chances _
    refine ⟨toPersisted env.clock (f (persistedToStored env.clock p)), ?_, ?_, ?_⟩
    · rw [hid]
      exact hstored
    · rw [hid]
    · rw [hchances]
      have hattempts := congrArg Chances.attempts hsame
      have hmax := congrArg Chances.maxAttempts hsame
      have httl : (f (persistedToStored env.clock p)).ttl = fromSecs p.ttlSecs.toNat := congrArg Chances.ttl hsame
      show Chances.mk p.attempts p.maxAttempts (fromSecs p.ttlSecs.toNat) 0 =
        ⟨(f (persistedToStored env.clock p)).attempts, (f (persistedToStored env.clock p)).maxAttempts,
          fromSecs (UInt64.ofNat ((f (persistedToStored env.clock p)).ttl / 1000000000)).toNat, 0⟩
      rw [httl, ttl_persisted]
      exact congrArg₂ (fun attempts maxAttempts => Chances.mk attempts maxAttempts (fromSecs p.ttlSecs.toNat) 0)
        hattempts.symm hmax.symm
  get_of_holds := by
    rintro env id s c ⟨p, hp, rfl, hchances⟩
    refine ⟨_, Option.map_eq_some_iff.mpr ⟨p, hp, rfl⟩, ?_⟩
    exact congrArg (fun c : Chances => { c with createdAt := env.clock.now }) hchances.symm
  state_update := by
    rintro env id f s c state hid hstate ⟨p, hp, rfl, -⟩ env'
    refine ⟨_, Option.map_eq_some_iff.mpr ⟨_, PersistentStorage.lookup_update_self env.clock hid hp, rfl⟩, ?_⟩
    show MessageState.ofCode (f (persistedToStored env.clock p)).state.code = state
    rw [MessageState.ofCode_code]
    exact hstate _

end Smppd.Store
