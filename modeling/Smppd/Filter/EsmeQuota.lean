/-
  QUOTAS (`src/filter/esme.rs`): whether an ESME that has used up what it may use is kept from sending.

  Usage is held in two places.  `EsmeManager::record_message` counts a message in the STATISTICS of the manager;
  `can_send` looks at the usage in the QUOTA of the ESME, and that one is increased by `Esme::record_message`
  only, which nobody calls.  What the store has never grows: it is the usage that the ESME was saved with, until
  a reset clears it.  So a quota does not bind, unless it was used up when the ESME was saved
  (`quotas_bind_iff`).

  The counters wrap.  `current_rate` of the statistics is never computed, and is left out.
-/
import Mathlib.Algebra.Ring.Nat
import Mathlib.Algebra.Ring.Int.Defs
import Smppd.Filter.Esme

set_option linter.unusedVariables false

namespace Smppd.Filter

open Table

/-! ## The manager -/

/-- ESME usage statistics. -/
structure EsmeUsageStats where
  esmeId : String
  totalMessages : UInt64 := 0
  deliveredMessages : UInt64 := 0
  failedMessages : UInt64 := 0
  totalCost : Int64 := 0
  totalRevenue : Int64 := 0
  avgLatencyMs : UInt64 := 0

/-- A message is counted. -/
def EsmeUsageStats.count (cost revenue : Int64) (delivered : Bool) (latencyMs : UInt64) (entry : EsmeUsageStats) :
    EsmeUsageStats :=
  let entry := { entry with totalMessages := entry.totalMessages + 1 }
  let entry :=
    if delivered then { entry with deliveredMessages := entry.deliveredMessages + 1 }
    else { entry with failedMessages := entry.failedMessages + 1 }
  let total := entry.deliveredMessages + entry.failedMessages
  { entry with
    totalCost := entry.totalCost + cost
    totalRevenue := entry.totalRevenue + revenue
    avgLatencyMs := (entry.avgLatencyMs * (total - 1) + latencyMs) / total }

/-- ESME manager for runtime operations. -/
structure EsmeManager where
  store : MemoryEsmeStore
  stats : Tbl String EsmeUsageStats

/-- `EsmeManager::record_message`. -/
def EsmeManager.recordMessage (esmeId : String) (cost revenue : Int64) (delivered : Bool) (latencyMs : UInt64)
    (self : EsmeManager) : EsmeManager :=
  let entry := (self.stats.lookup esmeId).getD { esmeId }
  { self with stats := self.stats.insert esmeId (entry.count cost revenue delivered latencyMs) }

/-- `Esme::record_message`: record message sent (for quota tracking). -/
def Esme.recordMessage (cost : Int64) (self : Esme) : Esme :=
  { self with quota := { self.quota with
    currentDailyMessages := self.quota.currentDailyMessages + 1
    currentMonthlyMessages := self.quota.currentMonthlyMessages + 1
    currentMonthlySpend := self.quota.currentMonthlySpend + cost } }

/-- The daily usage of a quota is cleared. -/
def EsmeQuota.resetDaily (self : EsmeQuota) : EsmeQuota := { self with currentDailyMessages := 0 }

/-- The monthly usage is. -/
def EsmeQuota.resetMonthly (self : EsmeQuota) : EsmeQuota :=
  { self with currentMonthlyMessages := 0, currentMonthlySpend := 0 }

/-- `reset_daily_quotas`. -/
def MemoryEsmeStore.resetDailyQuotas (self : MemoryEsmeStore) : MemoryEsmeStore :=
  { self with esmes := mapVals (fun id esme => { esme with quota := esme.quota.resetDaily }) self.esmes }

/-- `reset_monthly_quotas`. -/
def MemoryEsmeStore.resetMonthlyQuotas (self : MemoryEsmeStore) : MemoryEsmeStore :=
  { self with esmes := mapVals (fun id esme => { esme with quota := esme.quota.resetMonthly }) self.esmes }

/-- Messages are recorded, and quotas are reset. -/
inductive UsageEvent where
  | recordMessage (esmeId : String) (cost revenue : Int64) (delivered : Bool) (latencyMs : UInt64)
  | resetDailyQuotas
  | resetMonthlyQuotas

/-- What an event does to the manager and its store. -/
def EsmeManager.perform (self : EsmeManager) : UsageEvent → EsmeManager
  | .recordMessage esmeId cost revenue delivered latencyMs => self.recordMessage esmeId cost revenue delivered latencyMs
  | .resetDailyQuotas => { self with store := self.store.resetDailyQuotas }
  | .resetMonthlyQuotas => { self with store := self.store.resetMonthlyQuotas }

/-! ## What is asked of it -/

/-- How much has been used: today, and this month. -/
structure Usage where
  daily : Nat := 0
  monthly : Nat := 0
  spend : Int := 0

/-- Some limit of a quota has been reached. -/
def Usage.Reaches (usage : Usage) (quota : EsmeQuota) : Prop :=
  (0 < quota.monthlyMessages ∧ quota.monthlyMessages.toNat ≤ usage.monthly) ∨
    (0 < quota.monthlySpend ∧ quota.monthlySpend.toInt ≤ usage.spend) ∨
    (0 < quota.dailyMessages ∧ quota.dailyMessages.toNat ≤ usage.daily)

instance (usage : Usage) (quota : EsmeQuota) : Decidable (usage.Reaches quota) := inferInstanceAs (Decidable (_ ∨ _ ∨ _))

/-- One more message. -/
def Usage.record (cost : Int64) (usage : Usage) : Usage :=
  ⟨usage.daily + 1, usage.monthly + 1, usage.spend + cost.toInt⟩

/-- What an event is for, to the usage of one ESME. -/
def Usage.next (esmeId : String) (usage : Usage) : UsageEvent → Usage
  | .recordMessage id cost _ _ _ => if id = esmeId then usage.record cost else usage
  | .resetDailyQuotas => { usage with daily := 0 }
  | .resetMonthlyQuotas => { usage with monthly := 0, spend := 0 }

/-- What has been recorded for an ESME since the last matching resets. -/
def recorded (esmeId : String) (events : List UsageEvent) : Usage := events.foldl (Usage.next esmeId) {}

/-- What a reset clears of the usage that an ESME was saved with. -/
def EsmeQuota.next (quota : EsmeQuota) : UsageEvent → EsmeQuota
  | .recordMessage _ _ _ _ _ => quota
  | .resetDailyQuotas => quota.resetDaily
  | .resetMonthlyQuotas => quota.resetMonthly

/-- **The quota binds** after some events: if what was recorded since the last matching resets reaches a limit, the
    stored ESME cannot send; and if its status allows sending, and neither that nor what is left of the usage that
    it was saved with reaches a limit, it can. -/
def Binds (manager : EsmeManager) (esme : Esme) (events : List UsageEvent) : Prop :=
  ∀ stored, (events.foldl EsmeManager.perform manager).store.get esme.id = some stored →
    ((recorded esme.id events).Reaches esme.quota → stored.canSend = false) ∧
    (esme.status.canSend = true → ¬ (recorded esme.id events).Reaches esme.quota →
      (events.foldl EsmeQuota.next esme.quota).isExceeded = false → stored.canSend = true)

/-! ## What the quota looks at -/

/-- The usage that a quota holds. -/
def EsmeQuota.usage (self : EsmeQuota) : Usage :=
  ⟨self.currentDailyMessages.toNat, self.currentMonthlyMessages.toNat, self.currentMonthlySpend.toInt⟩

/-- A quota is exceeded when the usage that it holds reaches a limit. -/
theorem EsmeQuota.isExceeded_iff (quota : EsmeQuota) : quota.isExceeded = true ↔ quota.usage.Reaches quota := by
  unfold EsmeQuota.isExceeded Usage.Reaches EsmeQuota.usage
  rw [← UInt64.le_iff_toNat_le, ← UInt64.le_iff_toNat_le, ← Int64.le_iff_toInt_le]
  split
  · exact iff_of_true rfl (.inl ‹_›)
  · split
    · exact iff_of_true rfl (.inr (.inl ‹_›))
    · split
      · exact iff_of_true rfl (.inr (.inr ‹_›))
      · exact iff_of_false Bool.false_ne_true (by simp only [*, or_self, not_false_eq_true])

/-- `Esme::record_message` does what recording is for, as long as nothing wraps. -/
theorem Esme.usage_recordMessage (esme : Esme) (cost : Int64)
    (hdaily : esme.quota.usage.daily + 1 < 2 ^ 64) (hmonthly : esme.quota.usage.monthly + 1 < 2 ^ 64)
    (hlow : -2 ^ 63 ≤ esme.quota.usage.spend + cost.toInt) (hhigh : esme.quota.usage.spend + cost.toInt < 2 ^ 63) :
    (esme.recordMessage cost).quota.usage = esme.quota.usage.record cost := by
  have hdaily' : (esme.quota.currentDailyMessages + 1).toNat = esme.quota.currentDailyMessages.toNat + 1 := by
    rw [UInt64.toNat_add]
    exact Nat.mod_eq_of_lt hdaily
  have hmonthly' : (esme.quota.currentMonthlyMessages + 1).toNat = esme.quota.currentMonthlyMessages.toNat + 1 := by
    rw [UInt64.toNat_add]
    exact Nat.mod_eq_of_lt hmonthly
  have hspend' : (esme.quota.currentMonthlySpend + cost).toInt = esme.quota.currentMonthlySpend.toInt + cost.toInt := by
    rw [Int64.toInt_add]
    exact Int.bmod_eq_of_le hlow hhigh
  simp only [recordMessage, EsmeQuota.usage, Usage.record, hdaily', hmonthly', hspend']

/-- What an event does to a stored ESME: a reset clears, and nothing is ever added. -/
theorem EsmeManager.get_perform (manager : EsmeManager) (event : UsageEvent) (id : String) :
    (manager.perform event).store.get id =
      (manager.store.get id).map fun esme => { esme with quota := esme.quota.next event } := by
  cases event with
  | recordMessage esmeId cost revenue delivered latencyMs => exact Option.map_id'.symm ▸ rfl
  | resetDailyQuotas => exact lookup_mapVals _ _ _
  | resetMonthlyQuotas => exact lookup_mapVals _ _ _

theorem EsmeManager.get_foldl_perform (manager : EsmeManager) (events : List UsageEvent) (id : String) :
    (events.foldl perform manager).store.get id =
      (manager.store.get id).map fun esme => { esme with quota := events.foldl EsmeQuota.next esme.quota } := by
  induction events generalizing manager with
  | nil => exact Option.map_id'.symm ▸ rfl
  | cons event events ih =>
    rw [List.foldl_cons, ih, get_perform, Option.map_map]
    rfl

/-! ## When quotas bind -/

/-- After some events the quota binds just when no limit has been reached, unless the ESME may not send anyway. -/
theorem binds_iff {manager : EsmeManager} {esme : Esme} (hstored : manager.store.get esme.id = some esme)
    (events : List UsageEvent) :
    Binds manager esme events ↔ ((recorded esme.id events).Reaches esme.quota →
      esme.status.canSend = false ∨ (events.foldl EsmeQuota.next esme.quota).isExceeded = true) := by
  unfold Binds
  rw [EsmeManager.get_foldl_perform, hstored]
  simp only [Option.map_some, Option.some.injEq, forall_eq', Esme.canSend]
  cases esme.status.canSend <;> cases (events.foldl EsmeQuota.next esme.quota).isExceeded <;> simp

/-- **When quotas bind, exactly.**  For a stored ESME and any messages recorded and quotas reset: its quota binds all
    along just when the messages recorded since the last matching resets never reach a limit, but where its status
    does not allow sending or the usage that it was saved with is at a limit and has not been reset. -/
theorem quotas_bind_iff {manager : EsmeManager} {esme : Esme} (hstored : manager.store.get esme.id = some esme)
    (events : List UsageEvent) :
    (∀ before after, events = before ++ after → Binds manager esme before) ↔
      ∀ before after, events = before ++ after → (recorded esme.id before).Reaches esme.quota →
        esme.status.canSend = false ∨ (before.foldl EsmeQuota.next esme.quota).isExceeded = true :=
  forall₂_congr fun before after => imp_congr_right fun _ => binds_iff hstored before

/-- A new ESME that may send one message a day. -/
def oneADay : Esme := { Esme.new "a" "x" "1" with quota := { dailyMessages := 1 } }

/-- Its manager. -/
def oneADayManager : EsmeManager := ⟨MemoryEsmeStore.new.save oneADay, ∅⟩

/-- As long as it sends nothing, its quota binds. -/
theorem quotas_bind_unused :
    oneADayManager.store.get oneADay.id = some oneADay ∧
      ∀ before after, [UsageEvent.resetDailyQuotas] = before ++ after → Binds oneADayManager oneADay before := by
  have hstored : oneADayManager.store.get oneADay.id = some oneADay := rfl
  refine ⟨hstored, (quotas_bind_iff hstored [.resetDailyQuotas]).mpr ?_⟩
  intro before after heq hreaches
  refine absurd hreaches ?_
  cases before with
  | nil => decide
  | cons event before =>
    obtain ⟨rfl, hrest⟩ := List.cons.inj heq
    obtain ⟨rfl, -⟩ := List.append_eq_nil_iff.mp hrest.symm
    decide

/-- Once it has sent a message, it may send another one. -/
theorem quota_does_not_bind :
    ¬ ∀ before after, [UsageEvent.recordMessage "a" 10 25 true 100] = before ++ after → Binds oneADayManager oneADay before := by
  intro h
  have hbinds := (h [.recordMessage "a" 10 25 true 100] [] rfl _ rfl).1 (.inr (.inr ⟨by decide, by decide⟩))
  exact absurd hbinds (by decide)

end Smppd.Filter
