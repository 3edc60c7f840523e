/-
  The PAYLOAD of a record: what it keeps of the PDU it was made from.

  It is written once, when the message is stored.  No transition method touches it, the maintenance does
  not either, and the persistent back end reads back what it has written.  So whatever has happened to a
  record since, its payload is the one it was stored with (`PayloadStorage`, for both back ends).
-/
import Smppd.Store.Expiry

set_option linter.unusedVariables false

namespace Smppd.Store

/-- The fields of a record that come from the PDU. -/
structure Payload where
  source : String
  destination : String
  shortMessage : List UInt8
  dataCoding : UInt8
  esmClass : UInt8
  registeredDelivery : UInt8
  serviceType : Option String

/-- The payload of a message. -/
def StoredMessage.payload (m : StoredMessage) : Payload :=
  ⟨m.source, m.destination, m.shortMessage, m.dataCoding, m.esmClass, m.registeredDelivery, m.serviceType⟩

/-- A closure that leaves the message the message it was. -/
structure KeepsPayload (f : StoredMessage → StoredMessage) : Prop where
  id : ∀ m, (f m).id = m.id
  payload : ∀ m, (f m).payload = m.payload

/-- Whatever is found under the id has the payload. -/
def Bears {S : Type} [Storage S] (p : Payload) (id : MessageId) (s : S) : Prop :=
  ∀ env m, Storage.get env id s = some m → m.payload = p

/-- A storage whose operations keep payloads. -/
class PayloadStorage (S : Type) [Storage S] where
  /-- The shape the operations keep. -/
  Good : S → Prop
  /-- What `expire_old` and `prune_terminal` may make of a storage. -/
  Maintains : S → S → Prop
  good_store : ∀ env m (s : S), Good s → Good (Storage.store env m s)
  good_update : ∀ env id f (s : S), KeepsPayload f → Good s → Good (Storage.update env id f s).1
  good_maintains : ∀ s s' : S, Maintains s s' → Good s → Good s'
  bears_store_self : ∀ env m (s : S), Bears m.payload m.id (Storage.store env m s)
  bears_store : ∀ env m (s : S) p id, id ≠ m.id → Bears p id s → Bears p id (Storage.store env m s)
  bears_update : ∀ env id' f (s : S) p id, KeepsPayload f → Good s → Bears p id s →
    Bears p id (Storage.update env id' f s).1
  bears_maintains : ∀ (s s' : S) p id, Maintains s s' → Good s → Bears p id s → Bears p id s'

/-! ## The in-memory back end -/

theorem MemoryStorage.payload_expireOne (clock : Clock) (ttl : Duration) (m : StoredMessage) :
    (expireOne clock ttl m).payload = m.payload := by
  unfold expireOne
  split <;> rfl

instance : PayloadStorage MemoryStorage where
  Good := MemoryStorage.Keyed
  Maintains s s' := ∃ clock d, s' = (s.expireOld clock d).1 ∨ s' = (s.pruneTerminal clock d).1
  good_store := LawfulStorage.wf_store
  good_update env id f s hf h := MemoryStorage.keyed_update h id hf.id
  good_maintains := by
    rintro s s' ⟨clock, d, rfl | rfl⟩ h
    · exact MemoryStorage.keyed_expireOld h clock d
    · exact MemoryStorage.keyed_pruneTerminal h clock d
  bears_store_self := by
    intro env m s env' m' hget
    change (s.store env.order m).get m.id = some m' at hget
    rw [MemoryStorage.get_store_self] at hget
    rw [Option.some.inj hget]
  bears_store := by
    intro env m s p id hne hbears env' m' hget
    change (s.store env.order m).get id = some m' at hget
    rw [MemoryStorage.get_store, if_neg hne] at hget
    split at hget
    · cases hget
    · exact hbears env' m' hget
  bears_update := by
    intro env id' f s p id hf _ hbears env' m' hget
    change (s.update id' f).1.get id = some m' at hget
    rw [MemoryStorage.get_update] at hget
    split at hget
    · obtain ⟨m, hold, rfl⟩ := Option.map_eq_some_iff.mp hget
      exact (hf.payload m).trans (hbears env' m hold)
    · exact hbears env' m' hget
  bears_maintains := by
    rintro s s' p id ⟨clock, d, rfl | rfl⟩ _ hbears env m' hget
    · change (s.expireOld clock d).1.get id = some m' at hget
      rw [MemoryStorage.get_expireOld] at hget
      obtain ⟨m, hold, rfl⟩ := Option.map_eq_some_iff.mp hget
      exact (MemoryStorage.payload_expireOne clock d m).trans (hbears env m hold)
    · change (s.pruneTerminal clock d).1.get id = some m' at hget
      rw [MemoryStorage.get_pruneTerminal] at hget
      split at hget
      · cases hget
      · exact hbears env m' hget

/-! ## The persistent back end -/

namespace PersistentStorage

/-- The payload of a record on disk. -/
def payloadOf (p : PersistedMessage) : Payload := (persistedToStored ⟨0, 0⟩ p).payload

theorem bears_iff {p : Payload} {id : MessageId} {s : PersistentStorage} :
    Bears p id s ↔ ∀ r, s.messages.lookup (msgKey id) = some r → payloadOf r = p := by
  constructor
  · intro h r hr
    exact h ⟨⟨0, 0⟩, .listed⟩ _ (Option.map_eq_some_iff.mpr ⟨r, hr, rfl⟩)
  · intro h env m hget
    obtain ⟨r, hr, rfl⟩ := Option.map_eq_some_iff.mp hget
    exact h r hr

/-- The payload does not change on its way through the store. -/
theorem payloadOf_expiredRecord (clock : Clock) (r : PersistedMessage) :
    payloadOf (expiredRecord clock r) = payloadOf r := rfl

end PersistentStorage

instance : PayloadStorage PersistentStorage where
  Good := PersistentStorage.Covered
  Maintains s s' := ∃ clock d, s' = (s.expireOld clock d).1 ∨ s' = (s.pruneTerminal clock d).1
  good_store env m s h := (h.others m.id).persist
  good_update env id f s hf h := PersistentStorage.covered_update h env.clock id ⟨f, hf.id⟩
  good_maintains := by
    rintro s s' ⟨clock, d, rfl | rfl⟩ h
    · exact PersistentStorage.covered_expireOld h clock d
    · exact PersistentStorage.covered_pruneTerminal h clock d
  bears_store_self := by
    intro env m s
    refine PersistentStorage.bears_iff.mpr fun r hr => ?_
    rcases PersistentStorage.lookup_persist_eq_some.mp hr with ⟨-, rfl⟩ | ⟨hne, -⟩
    · rfl
    · exact absurd rfl hne
  bears_store := by
    intro env m s p id hne hbears
    refine PersistentStorage.bears_iff.mpr fun r hr => ?_
    rcases PersistentStorage.lookup_persist_eq_some.mp hr with ⟨hkey, -⟩ | ⟨-, hold⟩
    · exact absurd (msgKey_injective hkey) hne
    · exact PersistentStorage.bears_iff.mp hbears r hold
  bears_update := by
    intro env id' f s p id hf hgood hbears
    refine PersistentStorage.bears_iff.mpr fun r hr => ?_
    rcases hgood.lookup_of_update hf.id hr with hold | ⟨r₀, hold, rfl⟩
    · exact PersistentStorage.bears_iff.mp hbears r hold
    · exact (hf.payload _).trans (PersistentStorage.bears_iff.mp hbears r₀ hold)
  bears_maintains := by
    rintro s s' p id ⟨clock, d, rfl | rfl⟩ hgood hbears
    · refine PersistentStorage.bears_iff.mpr fun r hr => ?_
      rw [hgood.lookup_expireOld] at hr
      obtain ⟨r₀, hold, rfl⟩ := Option.map_eq_some_iff.mp hr
      have hp := PersistentStorage.bears_iff.mp hbears r₀ hold
      split
      · exact (PersistentStorage.payloadOf_expiredRecord clock r₀).trans hp
      · exact hp
    · refine PersistentStorage.bears_iff.mpr fun r hr => ?_
      exact PersistentStorage.bears_iff.mp hbears r (PersistentStorage.lookup_of_pruneTerminal hr)

end Smppd.Store
