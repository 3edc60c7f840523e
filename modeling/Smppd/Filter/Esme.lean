/-
  ESMEs (`src/filter/esme.rs`): the accounts that may bind, in a store that finds them by their id and, through an
  index that it keeps by hand, by their system id.

  `save` and `delete` take a system id out of the index WITHOUT LOOKING WHOSE ENTRY IT IS.  An entry can get lost
  that way, but none can become stale: whoever the index names is stored, and under that system id (`Indexed`).
  So nobody is authenticated as somebody else, whatever has been saved and deleted (`authenticate_sound`).

  A set is the list of its elements.
-/
import Smppd.Lib.Machine
import Smppd.Lib.Table

set_option linter.unusedVariables false

namespace Smppd.Filter

open Machine Table

/-! ## ESMEs -/

/-- ESME status. -/
inductive EsmeStatus where
  | active
  /-- Billing issue. -/
  | suspended
  /-- Admin action. -/
  | disabled
  /-- In trial period. -/
  | trial
  | quotaExceeded
  deriving DecidableEq

/-- `EsmeStatus::can_send`. -/
def EsmeStatus.canSend : EsmeStatus → Bool
  | .active | .trial => true
  | .suspended | .disabled | .quotaExceeded => false

/-- ESME quota configuration, and how much of it is used. -/
structure EsmeQuota where
  /-- 0 = unlimited. -/
  monthlyMessages : UInt64 := 0
  /-- In smallest currency unit (0 = unlimited). -/
  monthlySpend : Int64 := 0
  /-- 0 = unlimited. -/
  dailyMessages : UInt64 := 0
  currentMonthlyMessages : UInt64 := 0
  currentMonthlySpend : Int64 := 0
  currentDailyMessages : UInt64 := 0
  deriving DecidableEq

/-- `is_exceeded`. -/
def EsmeQuota.isExceeded (self : EsmeQuota) : Bool :=
  if 0 < self.monthlyMessages ∧ self.monthlyMessages ≤ self.currentMonthlyMessages then true
  else if 0 < self.monthlySpend ∧ self.monthlySpend ≤ self.currentMonthlySpend then true
  else if 0 < self.dailyMessages ∧ self.dailyMessages ≤ self.currentDailyMessages then true
  else false

/-- ESME credentials. -/
structure EsmeCredentials where
  /-- System ID for SMPP binding. -/
  systemId : String
  password : String
  /-- IP allow list (None = all IPs allowed). -/
  ipAllowList : Option (List String) := none
  deriving DecidableEq

/-- Complete ESME configuration, as far as it is read here. -/
structure Esme where
  /-- Unique ESME ID. -/
  id : String
  status : EsmeStatus := .active
  credentials : EsmeCredentials
  quota : EsmeQuota := {}
  deriving DecidableEq

namespace Esme

/-- `Esme::new`. -/
def new (id systemId password : String) : Esme := { id, credentials := { systemId, password } }

/-- The system ID of an ESME. -/
def systemId (self : Esme) : String := self.credentials.systemId

/-- `can_send`. -/
def canSend (self : Esme) : Bool := self.status.canSend && !self.quota.isExceeded

/-- `is_ip_allowed`. -/
def isIpAllowed (ip : String) (self : Esme) : Bool :=
  match self.credentials.ipAllowList with
  | some allowList => allowList.contains ip
  | none => true

end Esme

/-- Authentication result. -/
inductive AuthResult where
  | success (esme : Esme)
  | invalidCredentials
  | notFound
  | suspended (status : EsmeStatus)
  | ipNotAllowed
  | tlsRequired

/-! ## The store -/

/-- In-memory ESME store. -/
structure MemoryEsmeStore where
  esmes : Tbl String Esme
  systemIdIndex : Tbl String String

namespace MemoryEsmeStore

/-- `MemoryEsmeStore::new`. -/
def new : MemoryEsmeStore := ⟨∅, ∅⟩

/-- `get`. -/
def get (id : String) (self : MemoryEsmeStore) : Option Esme := self.esmes.lookup id

/-- `get_by_system_id`. -/
def getBySystemId (systemId : String) (self : MemoryEsmeStore) : Option Esme :=
  match self.systemIdIndex.lookup systemId with
  | some id => self.get id
  | none => none

/-- The first half of `save`, with the lock of the index: remove old system_id if ESME exists. -/
def withoutOld (id : String) (self : MemoryEsmeStore) : Tbl String String :=
  match self.esmes.lookup id with
  | some existing => self.systemIdIndex.erase existing.systemId
  | none => self.systemIdIndex

/-- `save`. -/
def save (esme : Esme) (self : MemoryEsmeStore) : MemoryEsmeStore :=
  { systemIdIndex := (self.withoutOld esme.id).insert esme.systemId esme.id, esmes := self.esmes.insert esme.id esme }

/-- `delete`. -/
def delete (id : String) (self : MemoryEsmeStore) : Except String MemoryEsmeStore :=
  match self.esmes.lookup id with
  | some esme => .ok { esmes := self.esmes.erase id, systemIdIndex := self.systemIdIndex.erase esme.systemId }
  | none => .error s!"ESME not found: {id}"

/-- `authenticate`. -/
def authenticate (systemId password : String) (ip : Option String) (self : MemoryEsmeStore) : AuthResult :=
  match self.getBySystemId systemId with
  | none => .notFound
  | some esme =>
    if !esme.status.canSend then .suspended esme.status
    else if esme.credentials.password ≠ password then .invalidCredentials
    else
      match ip with
      | some clientIp => if !esme.isIpAllowed clientIp then .ipNotAllowed else .success esme
      | none => .success esme

end MemoryEsmeStore

/-- What changes the store. -/
inductive EsmeCall where
  | save (esme : Esme)
  | delete (id : String)
  deriving DecidableEq

/-- A call; one that fails changes nothing. -/
def EsmeCall.perform (self : MemoryEsmeStore) : EsmeCall → Option MemoryEsmeStore
  | .save esme => some (self.save esme)
  | .delete id => some ((self.delete id).toOption.getD self)

/-! ## The index -/

namespace MemoryEsmeStore

/-- **The invariant**: an ESME is stored under its own id, and whoever the index names is stored and has the
    system id that it is named for. -/
structure Indexed (s : MemoryEsmeStore) : Prop where
  own : ∀ id esme, s.esmes.lookup id = some esme → esme.id = id
  named : ∀ systemId id, s.systemIdIndex.lookup systemId = some id →
    ∃ esme, s.esmes.lookup id = some esme ∧ esme.systemId = systemId

variable {s : MemoryEsmeStore}

theorem lookup_withoutOld {id systemId owner : String} :
    (s.withoutOld id).lookup systemId = some owner ↔
      s.systemIdIndex.lookup systemId = some owner ∧
        ∀ existing, s.esmes.lookup id = some existing → existing.systemId ≠ systemId := by
  unfold withoutOld
  cases hid : s.esmes.lookup id with
  | none => exact (and_iff_left nofun).symm
  | some existing =>
    show (s.systemIdIndex.erase existing.systemId).lookup systemId = some owner ↔ _
    rw [lookup_erase_eq_some, and_comm]
    refine and_congr_right fun _ => ⟨fun hne e he => ?_, fun hall heq => hall existing rfl heq.symm⟩
    obtain rfl : existing = e := Option.some.inj he
    exact Ne.symm hne

/-- Whose system id is looked up after a save. -/
theorem lookup_index_save {esme : Esme} {systemId owner : String} :
    (s.save esme).systemIdIndex.lookup systemId = some owner ↔
      (systemId = esme.systemId ∧ owner = esme.id) ∨
        (systemId ≠ esme.systemId ∧ s.systemIdIndex.lookup systemId = some owner ∧
          ∀ existing, s.esmes.lookup esme.id = some existing → existing.systemId ≠ systemId) := by
  show ((s.withoutOld esme.id).insert esme.systemId esme.id).lookup systemId = some owner ↔ _
  rw [lookup_insert_eq_some, lookup_withoutOld]

theorem lookup_esmes_save {esme found : Esme} {id : String} :
    (s.save esme).esmes.lookup id = some found ↔
      (id = esme.id ∧ found = esme) ∨ (id ≠ esme.id ∧ s.esmes.lookup id = some found) :=
  lookup_insert_eq_some

theorem delete_eq_ok {id : String} {s' : MemoryEsmeStore} :
    s.delete id = .ok s' ↔ ∃ esme, s.esmes.lookup id = some esme ∧
      s' = ⟨s.esmes.erase id, s.systemIdIndex.erase esme.systemId⟩ := by
  unfold delete
  cases hid : s.esmes.lookup id with
  | none => exact iff_of_false nofun nofun
  | some esme =>
    refine ⟨fun h => ⟨esme, rfl, (Except.ok.inj h).symm⟩, ?_⟩
    rintro ⟨e, he, rfl⟩
    obtain rfl : esme = e := Option.some.inj he
    rfl

theorem indexed_new : Indexed new where
  own := nofun
  named := nofun

/-- A save takes out the entry under the old name, and that is the only one that named the ESME. -/
theorem Indexed.save (h : s.Indexed) (esme : Esme) : (s.save esme).Indexed where
  own := fun id found hfound => by
    rcases lookup_esmes_save.mp hfound with ⟨rfl, rfl⟩ | ⟨hne, hold⟩
    · rfl
    · exact h.own id found hold
  named := fun systemId owner howner => by
    rcases lookup_index_save.mp howner with ⟨rfl, rfl⟩ | ⟨hne, hold, hkept⟩
    · exact ⟨esme, lookup_esmes_save.mpr (.inl ⟨rfl, rfl⟩), rfl⟩
    · obtain ⟨found, hfound, hname⟩ := h.named systemId owner hold
      refine ⟨found, lookup_esmes_save.mpr (.inr ⟨?_, hfound⟩), hname⟩
      rintro rfl
      exact hkept found hfound hname

/-- So does a delete. -/
theorem Indexed.delete (h : s.Indexed) {id : String} {s' : MemoryEsmeStore} (hdelete : s.delete id = .ok s') :
    s'.Indexed := by
  obtain ⟨esme, hesme, rfl⟩ := delete_eq_ok.mp hdelete
  exact {
    own := fun id' found hfound => h.own id' found (lookup_erase_eq_some.mp hfound).2
    named := fun systemId owner howner => by
      obtain ⟨hne, hold⟩ := lookup_erase_eq_some.mp howner
      obtain ⟨found, hfound, hname⟩ := h.named systemId owner hold
      refine ⟨found, lookup_erase_eq_some.mpr ⟨?_, hfound⟩, hname⟩
      rintro rfl
      obtain rfl : esme = found := Option.some.inj (hesme.symm.trans hfound)
      exact hne hname.symm }

theorem Indexed.perform (h : s.Indexed) {call : EsmeCall} {s' : MemoryEsmeStore} (hcall : call.perform s = some s') :
    s'.Indexed := by
  cases call with
  | save esme =>
    cases hcall
    exact h.save esme
  | delete id =>
    cases hcall
    cases hdelete : s.delete id with
    | ok s' => exact h.delete hdelete
    | error e => exact h

/-! ## Who is authenticated -/

theorem getBySystemId_eq_some {systemId : String} {esme : Esme} :
    s.getBySystemId systemId = some esme ↔
      ∃ id, s.systemIdIndex.lookup systemId = some id ∧ s.esmes.lookup id = some esme := by
  unfold getBySystemId
  cases s.systemIdIndex.lookup systemId with
  | none => exact iff_of_false nofun nofun
  | some id =>
    refine ⟨fun h => ⟨id, rfl, h⟩, ?_⟩
    rintro ⟨id', hid, h⟩
    obtain rfl : id = id' := Option.some.inj hid
    exact h

/-- Who is found is stored under its own id, and has the system id that was asked for. -/
theorem Indexed.found (h : s.Indexed) {systemId : String} {esme : Esme} (hfound : s.getBySystemId systemId = some esme) :
    s.get esme.id = some esme ∧ esme.systemId = systemId := by
  obtain ⟨id, hid, hesme⟩ := getBySystemId_eq_some.mp hfound
  obtain ⟨named, hnamed, hname⟩ := h.named systemId id hid
  obtain rfl : esme = named := Option.some.inj (hesme.symm.trans hnamed)
  obtain rfl : esme.id = id := h.own id esme hesme
  exact ⟨hesme, hname⟩

/-- What authentication checks. -/
theorem authenticate_eq_success {systemId password : String} {ip : Option String} {esme : Esme} :
    s.authenticate systemId password ip = .success esme ↔
      s.getBySystemId systemId = some esme ∧ esme.status.canSend = true ∧ esme.credentials.password = password ∧
        ∀ clientIp, ip = some clientIp → esme.isIpAllowed clientIp = true := by
  unfold authenticate
  cases hfound : s.getBySystemId systemId with
  | none => exact iff_of_false nofun nofun
  | some found =>
    constructor
    · intro h
      cases hstatus : found.status.canSend with
      | false =>
        simp only [hstatus, Bool.not_false, if_true] at h
        cases h
      | true =>
        simp only [hstatus, Bool.not_true, Bool.false_eq_true, if_false] at h
        by_cases hpassword : found.credentials.password = password
        · rw [if_neg (not_not_intro hpassword)] at h
          cases ip with
          | none =>
            obtain rfl : found = esme := AuthResult.success.inj h
            exact ⟨rfl, hstatus, hpassword, nofun⟩
          | some clientIp =>
            cases hip : found.isIpAllowed clientIp with
            | false =>
              simp only [hip, Bool.not_false, if_true] at h
              cases h
            | true =>
              simp only [hip, Bool.not_true, Bool.false_eq_true, if_false] at h
              obtain rfl : found = esme := AuthResult.success.inj h
              exact ⟨rfl, hstatus, hpassword, fun other heq => Option.some.inj heq ▸ hip⟩
        · rw [if_pos hpassword] at h
          cases h
    · rintro ⟨heq, hstatus, hpassword, hip⟩
      obtain rfl : found = esme := Option.some.inj heq
      simp only [hstatus, Bool.not_true, Bool.false_eq_true, if_false, hpassword, ne_eq, not_true_eq_false]
      cases ip with
      | none => rfl
      | some clientIp => simp only [hip clientIp rfl, Bool.not_true, Bool.false_eq_true, if_false]

/-- **Authentication is sound**, after any saves and deletes: whoever is found by a system id is stored under his
    own id and has that system id; and whoever is authenticated is stored, has the system id and the password
    that were given, may send, and allows the address that was given. -/
theorem authenticate_sound {calls : List EsmeCall} {s : MemoryEsmeStore} (hrun : run EsmeCall.perform new calls = some s) :
    (∀ systemId esme, s.getBySystemId systemId = some esme → s.get esme.id = some esme ∧ esme.systemId = systemId) ∧
      ∀ systemId password ip esme, s.authenticate systemId password ip = .success esme →
        s.get esme.id = some esme ∧ esme.systemId = systemId ∧ esme.credentials.password = password ∧
          esme.status.canSend = true ∧ ∀ clientIp, ip = some clientIp → esme.isIpAllowed clientIp = true := by
  have hindexed : s.Indexed := run_inv (fun t call t' h hcall => h.perform hcall) indexed_new hrun
  refine ⟨fun systemId esme hfound => hindexed.found hfound, fun systemId password ip esme hsuccess => ?_⟩
  obtain ⟨hfound, hstatus, hpassword, hip⟩ := authenticate_eq_success.mp hsuccess
  obtain ⟨hstored, hname⟩ := hindexed.found hfound
  exact ⟨hstored, hname, hpassword, hstatus, hip⟩

/-- Two ESMEs that have had one system id, and the one that took another one afterwards. -/
theorem authenticate_sound_renamed :
    ∃ s, run EsmeCall.perform new [.save (.new "a" "x" "1"), .save (.new "b" "x" "2"), .save (.new "a" "y" "1")] = some s ∧
      s.get "a" = some (.new "a" "y" "1") ∧ (Esme.new "a" "y" "1").systemId = "y" := by
  have hrun : run EsmeCall.perform new
      [.save (.new "a" "x" "1"), .save (.new "b" "x" "2"), .save (.new "a" "y" "1")] = some _ := rfl
  exact ⟨_, hrun, (authenticate_sound hrun).1 "y" (.new "a" "y" "1") rfl⟩

end MemoryEsmeStore

end Smppd.Filter
