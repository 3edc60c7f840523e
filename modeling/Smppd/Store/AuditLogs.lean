/-
  The AUDIT LOGS of the two back ends: call detail records and firewall events (`src/store/memory.rs`,
  `src/store/persistent.rs`).

  In memory a log is a list, and it FORGETS: when it is too long, it loses a chunk of its oldest records before the
  next one is appended.  In a partition a record stands under a key, and the records are met in the order of their
  keys; nothing is forgotten.  Both lose what is pruned.

  They are compared with a log that is only pruned, `held`.  As long as a record does not meet its own key again, the
  partition holds just that (`records_persistent_perm`); memory holds an end of it (`memory_suffix`), and all of it
  until it was too long once (`memory_eq_held`).  So the back ends give the same answers, as far as they do not depend
  on an order; and when the records come in the order of their keys, they do not depend on one.

  One call comes after the other.  A time is in nanoseconds after the epoch.
-/
import Smppd.Lib.Recent
import Smppd.Store.Cdrs
import Smppd.Store.Contents

set_option linter.unusedVariables false

namespace Smppd.Store

open Table Recent

/-! ## One kind of log -/

/-- A kind of records, and what the back ends do with it. -/
structure AuditLog (α : Type) where
  /-- The key in the partition. -/
  key : α → Key
  /-- The `SystemTime` of the record, if there is one. -/
  time : α → Option Int
  /-- `serde_json::to_vec` succeeds. -/
  encodes : α → Bool
  /-- Over so many records, ... -/
  limit : Nat
  /-- ... so many are drained. -/
  amount : Nat

/-- What is called of a log. -/
inductive LogCall (α : Type) where
  | store (record : α)
  /-- `SystemTime::now() - max_age` is the cutoff. -/
  | prune (cutoff : Int)

/-- An answer to a query: the records that are not skipped, up to the limit. -/
def answer {α : Type} (selects : α → Bool) (limit : Option Nat) (records : List α) : List α :=
  (records.filter selects).take (limit.getD 1000)

namespace AuditLog

variable {α : Type} (log : AuditLog α)

/-- The record is older than the cutoff. -/
def older (cutoff : Int) (record : α) : Bool :=
  match log.time record with
  | some time => decide (time < cutoff)
  | none => false

/-- Storing in memory. -/
def storeMemory (records : List α) (record : α) : List α :=
  let records := if log.limit < records.length then records.drop log.amount else records
  records ++ [record]

/-- Pruning in memory: how many are lost, and what is left. -/
def pruneMemory (cutoff : Int) (records : List α) : Nat × List α :=
  let kept := records.filter fun record =>
    match log.time record with
    | some time => decide (cutoff ≤ time)
    | none => true
  (records.length - kept.length, kept)

/-- Storing in a partition. -/
def storePersistent (p : Partition α) (record : α) : Partition α :=
  if log.encodes record then p.insert (log.key record) record else p

/-- Pruning a partition. -/
def prunePersistent (cutoff : Int) (p : Partition α) : Nat × Partition α :=
  let toDelete := (p.iter.filter fun e => log.older cutoff e.2).map Sigma.fst
  (toDelete.length, eraseAll toDelete p)

/-- One call in memory. -/
def memoryStep (records : List α) : LogCall α → List α
  | .store record => log.storeMemory records record
  | .prune cutoff => (log.pruneMemory cutoff records).2

/-- One call on a partition. -/
def persistentStep (p : Partition α) : LogCall α → Partition α
  | .store record => log.storePersistent p record
  | .prune cutoff => (log.prunePersistent cutoff p).2

def memory (calls : List (LogCall α)) : List α := calls.foldl log.memoryStep []

def persistent (calls : List (LogCall α)) : Partition α := calls.foldl log.persistentStep ∅

/-! ## A log that is only pruned -/

def heldStep (records : List α) : LogCall α → List α
  | .store record => records ++ [record]
  | .prune cutoff => records.filter fun record => !log.older cutoff record

/-- What was stored, and not pruned. -/
def held (calls : List (LogCall α)) : List α := calls.foldl log.heldStep []

/-- Whenever a record is stored, it stands in this relation to those that are held. -/
def Storing (rel : List α → α → Prop) (calls : List (LogCall α)) : Prop :=
  ∀ before record after, calls = before ++ .store record :: after → rel (log.held before) record

/-- No record takes the place of another. -/
def Fresh : List (LogCall α) → Prop := log.Storing fun held record => ∀ r ∈ held, log.key r ≠ log.key record

/-- The records come in the order of their keys. -/
def InOrder : List (LogCall α) → Prop := log.Storing fun held record => ∀ r ∈ held, log.key r < log.key record

/-- There are never too many records. -/
def Roomy : List (LogCall α) → Prop := log.Storing fun held record => held.length ≤ log.limit

variable {log}

theorem held_append (calls : List (LogCall α)) (call : LogCall α) :
    log.held (calls ++ [call]) = log.heldStep (log.held calls) call := List.foldl_append

theorem memory_append (calls : List (LogCall α)) (call : LogCall α) :
    log.memory (calls ++ [call]) = log.memoryStep (log.memory calls) call := List.foldl_append

theorem persistent_append (calls : List (LogCall α)) (call : LogCall α) :
    log.persistent (calls ++ [call]) = log.persistentStep (log.persistent calls) call := List.foldl_append

section Storing

variable {rel rel' : List α → α → Prop} {calls : List (LogCall α)}

theorem Storing.init {call : LogCall α} (h : log.Storing rel (calls ++ [call])) : log.Storing rel calls := by
  intro before record after hcalls
  exact h before record (after ++ [call]) (by rw [hcalls, List.append_assoc, List.cons_append])

theorem Storing.last {record : α} (h : log.Storing rel (calls ++ [.store record])) : rel (log.held calls) record :=
  h calls record [] rfl

theorem storing_nil : log.Storing rel [] := by
  intro before record after hcalls
  cases before <;> cases hcalls

theorem Storing.store {record : α} (h : log.Storing rel calls) (hlast : rel (log.held calls) record) :
    log.Storing rel (calls ++ [.store record]) := by
  intro before record' after hcalls
  rcases List.eq_nil_or_concat after with rfl | ⟨after, call, rfl⟩
  · obtain ⟨rfl, hrecord⟩ := List.append_inj' hcalls rfl
    cases hrecord
    exact hlast
  · rw [List.concat_eq_append, ← List.cons_append, ← List.append_assoc] at hcalls
    exact h before record' after (List.append_inj' hcalls rfl).1

theorem Storing.prune {cutoff : Int} (h : log.Storing rel calls) : log.Storing rel (calls ++ [.prune cutoff]) := by
  intro before record' after hcalls
  rcases List.eq_nil_or_concat after with rfl | ⟨after, call, rfl⟩
  · cases (List.append_inj' hcalls rfl).2
  · rw [List.concat_eq_append, ← List.cons_append, ← List.append_assoc] at hcalls
    exact h before record' after (List.append_inj' hcalls rfl).1

theorem Storing.mono (h : log.Storing rel calls) (himp : ∀ held record, rel held record → rel' held record) :
    log.Storing rel' calls :=
  fun before record after hcalls => himp _ _ (h before record after hcalls)

end Storing

theorem InOrder.fresh {calls : List (LogCall α)} (h : log.InOrder calls) : log.Fresh calls :=
  h.mono fun _ _ hlt r hr => ne_of_lt (hlt r hr)

/-! ## Memory holds an end of it -/

theorem storeMemory_eq (records : List α) (record : α) :
    log.storeMemory records record = push (chunk log.limit log.amount) records record := by
  unfold storeMemory push chunk
  split
  · rfl
  · rw [List.drop_zero]

theorem pruneMemory_snd (cutoff : Int) (records : List α) :
    (log.pruneMemory cutoff records).2 = records.filter fun record => !log.older cutoff record := by
  refine List.filter_congr fun record _ => ?_
  unfold older
  cases log.time record with
  | some time =>
    show decide (cutoff ≤ time) = !decide (time < cutoff)
    rw [← decide_not, decide_eq_decide]
    exact not_lt.symm
  | none => rfl

/-- What is pruned is counted. -/
theorem pruneMemory_fst (cutoff : Int) (records : List α) :
    (log.pruneMemory cutoff records).1 = records.countP (log.older cutoff) := by
  show records.length - (log.pruneMemory cutoff records).2.length = _
  rw [pruneMemory_snd, ← List.countP_eq_length_filter, List.length_eq_countP_add_countP (log.older cutoff)]
  have hnot : records.countP (fun record => !log.older cutoff record) =
      records.countP fun record => decide ¬ log.older cutoff record = true := by
    refine List.countP_congr fun record _ => ?_
    simp
  omega

theorem memory_suffix (calls : List (LogCall α)) : log.memory calls <:+ log.held calls := by
  induction calls using List.reverseRecOn with
  | nil => exact List.suffix_refl _
  | append_singleton calls call ih =>
    rw [memory_append, held_append]
    cases call with
    | store record =>
      obtain ⟨forgotten, hforgotten⟩ := (List.drop_suffix (chunk log.limit log.amount (log.memory calls).length) _).trans ih
      refine ⟨forgotten, ?_⟩
      show forgotten ++ log.storeMemory (log.memory calls) record = log.held calls ++ [record]
      rw [storeMemory_eq, push, ← hforgotten, List.append_assoc]
    | prune cutoff =>
      show (log.pruneMemory cutoff (log.memory calls)).2 <:+ _
      rw [pruneMemory_snd]
      exact ih.filter _

/-- It is never much too long. -/
theorem memory_length_le (hamount : 0 < log.amount) (calls : List (LogCall α)) :
    (log.memory calls).length ≤ log.limit + 1 := by
  induction calls using List.reverseRecOn with
  | nil => exact Nat.zero_le _
  | append_singleton calls call ih =>
    rw [memory_append]
    cases call with
    | store record =>
      show (log.storeMemory (log.memory calls) record).length ≤ _
      rw [storeMemory_eq, length_push, chunk]
      split <;> omega
    | prune cutoff =>
      show (log.pruneMemory cutoff (log.memory calls)).2.length ≤ _
      rw [pruneMemory_snd]
      exact (List.length_filter_le _ _).trans ih

/-- **Nothing is forgotten** as long as there are never too many. -/
theorem memory_eq_held {calls : List (LogCall α)} (hroomy : log.Roomy calls) : log.memory calls = log.held calls := by
  induction calls using List.reverseRecOn with
  | nil => rfl
  | append_singleton calls call ih =>
    have hsame := ih hroomy.init
    rw [memory_append, held_append, hsame]
    cases call with
    | store record =>
      show log.storeMemory (log.held calls) record = log.held calls ++ [record]
      rw [storeMemory, if_neg (Nat.not_lt_of_le hroomy.last)]
    | prune cutoff => exact pruneMemory_snd cutoff _

/-! ## The partition holds all of it -/

/-- What can be written. -/
def encoded (log : AuditLog α) (calls : List (LogCall α)) : List α := (log.held calls).filter log.encodes

/-- Each record stands under its own key. -/
def Keyed (log : AuditLog α) (p : Partition α) : Prop := ∀ key record, p.lookup key = some record → key = log.key record

theorem mem_vals {p : Partition α} {record : α} : record ∈ vals p ↔ ∃ key, p.lookup key = some record := by
  rw [vals, List.mem_map]
  constructor
  · rintro ⟨⟨key, record'⟩, he, rfl⟩
    exact ⟨key, mem_entries.mp he⟩
  · rintro ⟨key, hlookup⟩
    exact ⟨⟨key, record⟩, mem_entries.mpr hlookup, rfl⟩

theorem toDelete_iff {cutoff : Int} {p : Partition α} {key : Key} :
    key ∈ (p.iter.filter fun e => log.older cutoff e.2).map Sigma.fst ↔
      ∃ record, p.lookup key = some record ∧ log.older cutoff record = true := by
  rw [List.mem_map]
  constructor
  · rintro ⟨⟨key', record⟩, he, rfl⟩
    obtain ⟨hin, holder⟩ := List.mem_filter.mp he
    exact ⟨record, Partition.mem_iter.mp hin, holder⟩
  · rintro ⟨record, hlookup, holder⟩
    exact ⟨⟨key, record⟩, List.mem_filter.mpr ⟨Partition.mem_iter.mpr hlookup, holder⟩, rfl⟩

theorem lookup_prunePersistent {cutoff : Int} {p : Partition α} {key : Key} {record : α} :
    (log.prunePersistent cutoff p).2.lookup key = some record ↔
      p.lookup key = some record ∧ log.older cutoff record = false := by
  show (eraseAll _ p).lookup key = _ ↔ _
  rw [lookup_eraseAll]
  constructor
  · intro hlookup
    obtain ⟨hkeep, hlookup⟩ := Option.ite_none_left_eq_some.mp hlookup
    refine ⟨hlookup, Bool.eq_false_iff.mpr fun holder => hkeep ?_⟩
    exact toDelete_iff.mpr ⟨record, hlookup, holder⟩
  · rintro ⟨hlookup, holder⟩
    rw [if_neg]
    · exact hlookup
    · intro hdelete
      obtain ⟨record', hlookup', holder'⟩ := toDelete_iff.mp hdelete
      rw [hlookup, Option.some.injEq] at hlookup'
      rw [← hlookup', holder] at holder'
      cases holder'

/-- Pruning leaves the values that are not older. -/
theorem vals_prunePersistent (cutoff : Int) (p : Partition α) :
    (vals (log.prunePersistent cutoff p).2).Perm ((vals p).filter fun record => !log.older cutoff record) := by
  have hnodup : (p.entries.filter fun e => !log.older cutoff e.2).NodupKeys :=
    p.nodupKeys.sublist List.filter_sublist
  have hentries : (log.prunePersistent cutoff p).2.entries.Perm (p.entries.filter fun e => !log.older cutoff e.2) := by
    refine List.lookup_ext (log.prunePersistent cutoff p).2.nodupKeys hnodup fun key record => ?_
    rw [List.mem_dlookup_iff hnodup, List.mem_filter, mem_entries, Bool.not_eq_true']
    exact lookup_prunePersistent
  rw [vals, vals, List.filter_map]
  exact hentries.map Sigma.snd

theorem prunePersistent_fst (cutoff : Int) (p : Partition α) :
    (log.prunePersistent cutoff p).1 = (vals p).countP (log.older cutoff) := by
  show ((p.iter.filter _).map Sigma.fst).length = _
  rw [List.length_map, ← List.countP_eq_length_filter, vals, List.countP_map]
  exact (List.mergeSort_perm p.entries _).countP_eq _

theorem keyed_persistent (calls : List (LogCall α)) : log.Keyed (log.persistent calls) := by
  induction calls using List.reverseRecOn with
  | nil =>
    intro key record hlookup
    cases hlookup
  | append_singleton calls call ih =>
    intro key record hlookup
    rw [persistent_append] at hlookup
    cases call with
    | store record' =>
      change (if log.encodes record' then _ else log.persistent calls).lookup key = some record at hlookup
      split at hlookup
      · rcases lookup_insert_eq_some.mp hlookup with ⟨rfl, rfl⟩ | ⟨-, hlookup⟩
        · rfl
        · exact ih key record hlookup
      · exact ih key record hlookup
    | prune cutoff => exact ih key record (lookup_prunePersistent.mp hlookup).1

/-- **The partition holds what is held**, when no record takes the place of another. -/
theorem vals_persistent_perm {calls : List (LogCall α)} (hfresh : log.Fresh calls) :
    (vals (log.persistent calls)).Perm (log.encoded calls) := by
  induction calls using List.reverseRecOn with
  | nil => exact List.Perm.refl _
  | append_singleton calls call ih =>
    have hperm := ih hfresh.init
    rw [persistent_append, encoded, held_append]
    cases call with
    | store record =>
      show (vals (if log.encodes record then _ else log.persistent calls)).Perm ((log.held calls ++ [record]).filter _)
      rw [List.filter_append]
      split
      · rename_i hencodes
        have hnew : log.key record ∉ log.persistent calls := by
          intro hmem
          obtain ⟨r, hlookup⟩ := Option.isSome_iff_exists.mp (AList.lookup_isSome.mpr hmem)
          have hheld : r ∈ log.encoded calls := hperm.mem_iff.mp (mem_vals.mpr ⟨_, hlookup⟩)
          exact hfresh.last r (List.mem_of_mem_filter hheld) (keyed_persistent calls _ r hlookup).symm
        rw [vals, AList.entries_insert_of_notMem hnew, List.map_cons, List.filter_cons_of_pos hencodes, List.filter_nil]
        exact (hperm.cons record).trans (List.perm_append_singleton record _).symm
      · rename_i hencodes
        rw [List.filter_cons_of_neg hencodes, List.filter_nil, List.append_nil]
        exact hperm
    | prune cutoff =>
      refine (vals_prunePersistent cutoff _).trans ?_
      have hfilter : ((log.held calls).filter fun record => !log.older cutoff record).filter log.encodes =
          (log.encoded calls).filter fun record => !log.older cutoff record := List.filter_comm ..
      show List.Perm _ (((log.held calls).filter fun record => !log.older cutoff record).filter log.encodes)
      rw [hfilter]
      exact hperm.filter _

theorem records_persistent_perm {calls : List (LogCall α)} (hfresh : log.Fresh calls) :
    ((log.persistent calls).iter.map Sigma.snd).Perm (log.encoded calls) := by
  have hiter : (log.persistent calls).iter.Perm (log.persistent calls).entries := List.mergeSort_perm _ _
  have hvals : ((log.persistent calls).iter.map Sigma.snd).Perm (vals (log.persistent calls)) := hiter.map Sigma.snd
  exact hvals.trans (vals_persistent_perm hfresh)

theorem held_inOrder {calls : List (LogCall α)} (horder : log.InOrder calls) :
    (log.held calls).Pairwise fun a b => log.key a < log.key b := by
  induction calls using List.reverseRecOn with
  | nil => exact List.Pairwise.nil
  | append_singleton calls call ih =>
    rw [held_append]
    cases call with
    | store record =>
      show (log.held calls ++ [record]).Pairwise _
      rw [List.pairwise_append]
      refine ⟨ih horder.init, List.pairwise_singleton _ _, fun a ha b hb => ?_⟩
      rw [List.mem_singleton.mp hb]
      exact horder.last a ha
    | prune cutoff => exact (ih horder.init).filter _

/-- **In the same order**, when the records come in the order of their keys. -/
theorem records_persistent_eq {calls : List (LogCall α)} (horder : log.InOrder calls) :
    (log.persistent calls).iter.map Sigma.snd = log.encoded calls := by
  have hsorted : ((log.persistent calls).iter.map Sigma.snd).Pairwise fun a b => log.key a < log.key b := by
    rw [List.pairwise_map]
    refine (Partition.iter_sorted _).imp_of_mem fun ha hb hlt => ?_
    rw [← keyed_persistent calls _ _ (Partition.mem_iter.mp ha), ← keyed_persistent calls _ _ (Partition.mem_iter.mp hb)]
    exact hlt
  have hheld : (log.encoded calls).Pairwise fun a b => log.key a < log.key b := (held_inOrder horder).filter _
  refine List.Perm.eq_of_pairwise (fun a b _ _ hab hba => ?_) hsorted hheld (records_persistent_perm horder.fresh)
  exact absurd hba (lt_asymm hab)

end AuditLog

/-! ## Answers -/

section Answers

variable {α : Type} {selects : α → Bool} {limit : Option Nat} {records records' : List α}

/-- The limit is not reached. -/
theorem answer_of_le (hlimit : (records.filter selects).length ≤ limit.getD 1000) :
    answer selects limit records = records.filter selects := List.take_of_length_le hlimit

theorem answer_perm (hperm : records.Perm records') (hlimit : (records.filter selects).length ≤ limit.getD 1000) :
    (answer selects limit records).Perm (answer selects limit records') := by
  have hfilter := hperm.filter selects
  rw [answer_of_le hlimit, answer_of_le (hfilter.length_eq ▸ hlimit)]
  exact hfilter

theorem answer_suffix (hsuffix : records <:+ records') (hlimit : (records'.filter selects).length ≤ limit.getD 1000) :
    answer selects limit records <:+ answer selects limit records' := by
  have hfilter := hsuffix.filter selects
  rw [answer_of_le hlimit, answer_of_le (hfilter.length_le.trans hlimit)]
  exact hfilter

end Answers

/-! ## Call detail records -/

/-- The log of the call detail records; `parse` is what the `chrono` crate makes of a time in RFC 3339. -/
def cdrLog (parse : String → Option Int) : AuditLog Cdr where
  key := cdrKey
  time cdr := parse cdr.timestamp
  encodes _ := true
  limit := 100000
  amount := 10000

namespace MemoryLogs

/-- `store_cdr`. -/
def storeCdr (parse : String → Option Int) : List Cdr → Cdr → List Cdr := (cdrLog parse).storeMemory

/-- `query_cdrs`. -/
def queryCdrs (query : CdrQuery) : List Cdr → List Cdr := answer query.selects query.limit

/-- The body of the loop of `cdr_stats`, which leaves the total. -/
def addCdr (stats : CdrStats) (cdr : Cdr) : CdrStats := { stats.add cdr with total := stats.total }

/-- `cdr_stats`. -/
def cdrStats (cdrs : List Cdr) : CdrStats := cdrs.foldl addCdr { total := UInt64.ofNat cdrs.length }

/-- `prune_cdrs`. -/
def pruneCdrs (parse : String → Option Int) : Int → List Cdr → Nat × List Cdr := (cdrLog parse).pruneMemory

theorem foldl_addCdr (cdrs : List Cdr) (total : UInt64) (stats : CdrStats) :
    cdrs.foldl addCdr { stats with total := total } = { cdrs.foldl CdrStats.add stats with total := total } := by
  induction cdrs generalizing stats with
  | nil => rfl
  | cons cdr cdrs ih => exact ih (stats.add cdr)

/-- The records are counted beforehand, and that is the same. -/
theorem cdrStats_eq (cdrs : List Cdr) : cdrStats cdrs = cdrs.foldl CdrStats.add {} := by
  have htotal : (cdrs.foldl CdrStats.add {}).total = UInt64.ofNat cdrs.length :=
    (foldl_total cdrs {}).trans (UInt64.zero_add _)
  calc cdrStats cdrs
    _ = { cdrs.foldl CdrStats.add {} with total := UInt64.ofNat cdrs.length } := foldl_addCdr cdrs _ {}
    _ = cdrs.foldl CdrStats.add {} := by rw [← htotal]

end MemoryLogs

/-- `prune_cdrs` of the persistent storage. -/
def pruneCdrs (parse : String → Option Int) : Int → Partition Cdr → Nat × Partition Cdr := (cdrLog parse).prunePersistent

theorem queryCdrs_answer (query : CdrQuery) (p : Partition Cdr) :
    queryCdrs query p = answer query.selects query.limit (records p) := queryCdrs_eq query p

/-- The statistics are the same, but for the currency. -/
structure SameCounts (stats stats' : CdrStats) : Prop where
  total : stats.total = stats'.total
  byType : ∀ t : CdrType, (stats.byType.lookup t.debug).getD 0 = (stats'.byType.lookup t.debug).getD 0
  totalRevenue : stats.totalRevenue = stats'.totalRevenue
  totalCost : stats.totalCost = stats'.totalCost

theorem sameCounts_of_perm {cdrs cdrs' : List Cdr} (hperm : cdrs.Perm cdrs') :
    SameCounts (cdrs.foldl CdrStats.add {}) (cdrs'.foldl CdrStats.add {}) := by
  refine ⟨?_, fun t => ?_, ?_, ?_⟩
  · rw [foldl_total, foldl_total, hperm.length_eq]
  · rw [foldl_byType, foldl_byType, hperm.countP_eq]
  · rw [foldl_revenue, foldl_revenue, amounts_perm _ hperm]
  · rw [foldl_cost, foldl_cost, amounts_perm _ hperm]

/-- How the back ends agree after these calls. -/
structure CdrsAgree (parse : String → Option Int) (calls : List (LogCall Cdr)) (held cdrs : List Cdr)
    (p : Partition Cdr) : Prop where
  /-- Memory has the last records, ... -/
  recent : cdrs <:+ held
  /-- ... and not many more than it should have. -/
  bounded : cdrs.length ≤ 100001
  /-- The partition has all of them. -/
  persisted : (records p).Perm held
  /-- When there were never too many, all that does not depend on an order is the same. -/
  pruned : (cdrLog parse).Roomy calls →
    ∀ cutoff, (MemoryLogs.pruneCdrs parse cutoff cdrs).1 = (pruneCdrs parse cutoff p).1
  found : (cdrLog parse).Roomy calls → ∀ query, (held.filter query.selects).length ≤ query.limit.getD 1000 →
    (MemoryLogs.queryCdrs query cdrs).Perm (queryCdrs query p)
  counted : (cdrLog parse).Roomy calls → SameCounts (MemoryLogs.cdrStats cdrs) (cdrStats p)
  /-- When they came in the order of their keys, there is no difference at all, ... -/
  inOrder : (cdrLog parse).Roomy calls → (cdrLog parse).InOrder calls →
    (∀ query, MemoryLogs.queryCdrs query cdrs = queryCdrs query p) ∧ MemoryLogs.cdrStats cdrs = cdrStats p
  /-- ... and if there were too many, the last of them are found. -/
  late : (cdrLog parse).InOrder calls → ∀ query, (held.filter query.selects).length ≤ query.limit.getD 1000 →
    MemoryLogs.queryCdrs query cdrs <:+ queryCdrs query p

/-- **The two back ends agree** on the call detail records, as long as no record takes the place of another. -/
theorem cdrs_agree (parse : String → Option Int) (calls : List (LogCall Cdr)) (hfresh : (cdrLog parse).Fresh calls) :
    CdrsAgree parse calls ((cdrLog parse).held calls) ((cdrLog parse).memory calls) ((cdrLog parse).persistent calls) := by
  have hencoded : (cdrLog parse).encoded calls = (cdrLog parse).held calls := List.filter_eq_self.mpr fun _ _ => rfl
  have hperm : (records ((cdrLog parse).persistent calls)).Perm ((cdrLog parse).held calls) :=
    hencoded ▸ AuditLog.records_persistent_perm hfresh
  have hrecords : (cdrLog parse).InOrder calls → records ((cdrLog parse).persistent calls) = (cdrLog parse).held calls :=
    fun horder => hencoded ▸ AuditLog.records_persistent_eq horder
  refine ⟨AuditLog.memory_suffix calls, AuditLog.memory_length_le (Nat.succ_pos 9999) calls, hperm, fun hroomy cutoff => ?_,
    fun hroomy query hlimit => ?_, fun hroomy => ?_, fun hroomy horder => ⟨fun query => ?_, ?_⟩,
    fun horder query hlimit => ?_⟩
  · have hvals := AuditLog.vals_persistent_perm hfresh
    rw [hencoded] at hvals
    rw [AuditLog.memory_eq_held hroomy, MemoryLogs.pruneCdrs, pruneCdrs, AuditLog.pruneMemory_fst,
      AuditLog.prunePersistent_fst, hvals.countP_eq]
  · rw [AuditLog.memory_eq_held hroomy, queryCdrs_answer]
    exact answer_perm hperm.symm hlimit
  · rw [AuditLog.memory_eq_held hroomy, MemoryLogs.cdrStats_eq, cdrStats_eq]
    exact sameCounts_of_perm hperm.symm
  · rw [AuditLog.memory_eq_held hroomy, queryCdrs_answer, hrecords horder]
    rfl
  · rw [AuditLog.memory_eq_held hroomy, MemoryLogs.cdrStats_eq, cdrStats_eq, hrecords horder]
  · rw [queryCdrs_answer, hrecords horder]
    exact answer_suffix (AuditLog.memory_suffix calls) hlimit

/-- Two records on two days, and the first is pruned. -/
def twoDays : List (LogCall Cdr) :=
  [.store (Cdr.submit "2024-01-01T00:00:00+00:00" "1" "acme" "100" "200"),
    .store (Cdr.submit "2024-01-02T00:00:00+00:00" "2" "acme" "100" "200"), .prune 1704100000000000000]

/-- The two times, and no other. -/
def parseDays (text : String) : Option Int :=
  if text = "2024-01-01T00:00:00+00:00" then some 1704067200000000000
  else if text = "2024-01-02T00:00:00+00:00" then some 1704153600000000000
  else none

theorem cdrs_agree_twoDays :
    CdrsAgree parseDays twoDays ((cdrLog parseDays).held twoDays) ((cdrLog parseDays).memory twoDays)
        ((cdrLog parseDays).persistent twoDays) ∧
      (cdrLog parseDays).memory twoDays = [Cdr.submit "2024-01-02T00:00:00+00:00" "2" "acme" "100" "200"] :=
  ⟨cdrs_agree parseDays twoDays
    (((AuditLog.storing_nil.store fun _ h => absurd h List.not_mem_nil).store
      fun r h => List.mem_singleton.mp h ▸ by decide).prune), by decide⟩

/-! ## Firewall events -/

/-- Firewall action taken. -/
inductive FirewallAction where
  | allow
  | block
  /-- The message was logged only. -/
  | log
  | quarantine
  | alert
  deriving DecidableEq

/-- Firewall event for audit logging. -/
structure FirewallEvent where
  id : UInt64
  timestamp : Int
  /-- ESME system_id. -/
  esmeId : String
  source : String
  destination : String
  action : FirewallAction
  /-- Rule that matched. -/
  rule : Option String := none
  reason : Option String := none
  /-- Truncated. -/
  contentPreview : Option String := none
  deriving DecidableEq

/-- `format!("fwevent_{}_{}", epoch_ms, event.id)`; a time before the epoch counts as the epoch. -/
def eventKey (event : FirewallEvent) : Key :=
  "fwevent_".toList ++ (digits (event.timestamp.toNat / 1000000) ++ '_' :: digits event.id.toNat)

/-- The log of the firewall events.  `serde` does not write a time before the epoch. -/
def eventLog : AuditLog FirewallEvent where
  key := eventKey
  time event := some event.timestamp
  encodes event := decide (0 ≤ event.timestamp)
  limit := 50000
  amount := 5000

/-- Query filter for firewall events. -/
structure FirewallEventQuery where
  esmeId : Option String := none
  action : Option FirewallAction := none
  destinationPrefix : Option String := none
  after : Option Int := none
  before : Option Int := none
  /-- Maximum number of results. -/
  limit : Option Nat := none

/-- The event is not skipped. -/
def FirewallEventQuery.selects (query : FirewallEventQuery) (event : FirewallEvent) : Bool :=
  query.esmeId.all (fun esme => event.esmeId = esme)
    && query.action.all (fun action => event.action = action)
    && query.destinationPrefix.all (fun p => p.toList.isPrefixOf event.destination.toList)
    && query.after.all (fun after => !decide (event.timestamp < after))
    && query.before.all (fun before => !decide (before < event.timestamp))

namespace MemoryLogs

/-- `store_firewall_event`. -/
def storeFirewallEvent : List FirewallEvent → FirewallEvent → List FirewallEvent := eventLog.storeMemory

/-- `query_firewall_events`. -/
def queryFirewallEvents (query : FirewallEventQuery) : List FirewallEvent → List FirewallEvent :=
  answer query.selects query.limit

/-- `prune_firewall_events`. -/
def pruneFirewallEvents : Int → List FirewallEvent → Nat × List FirewallEvent := eventLog.pruneMemory

end MemoryLogs

/-- `store_firewall_event` of the persistent storage. -/
def storeFirewallEvent : Partition FirewallEvent → FirewallEvent → Partition FirewallEvent := eventLog.storePersistent

/-- `query_firewall_events` of the persistent storage. -/
def queryFirewallEvents (query : FirewallEventQuery) (events : Partition FirewallEvent) : List FirewallEvent :=
  collectEntries query.selects (query.limit.getD 1000) events.iter []

/-- `prune_firewall_events` of the persistent storage. -/
def pruneFirewallEvents : Int → Partition FirewallEvent → Nat × Partition FirewallEvent := eventLog.prunePersistent

theorem queryFirewallEvents_answer (query : FirewallEventQuery) (p : Partition FirewallEvent) :
    queryFirewallEvents query p = answer query.selects query.limit (p.iter.map Sigma.snd) := by
  rw [queryFirewallEvents, collectEntries_eq]
  rfl

/-- The event is not before the epoch. -/
def sinceEpoch (event : FirewallEvent) : Bool := decide (0 ≤ event.timestamp)

/-- How the back ends agree after these calls. -/
structure EventsAgree (calls : List (LogCall FirewallEvent)) (held events : List FirewallEvent)
    (p : Partition FirewallEvent) : Prop where
  recent : events <:+ held
  bounded : events.length ≤ 50001
  /-- The partition has all but those before the epoch. -/
  persisted : (p.iter.map Sigma.snd).Perm (held.filter sinceEpoch)
  /-- When there were never too many, that is the only difference, but for an order. -/
  pruned : eventLog.Roomy calls → ∀ cutoff,
    (pruneFirewallEvents cutoff p).1 =
      (MemoryLogs.pruneFirewallEvents cutoff events).1 -
        (held.filter fun event => !sinceEpoch event).countP (eventLog.older cutoff)
  found : eventLog.Roomy calls → ∀ query, (held.filter query.selects).length ≤ query.limit.getD 1000 →
    ((MemoryLogs.queryFirewallEvents query events).filter sinceEpoch).Perm (queryFirewallEvents query p)
  /-- When the events came in the order of their keys, and after the epoch, there is no difference. -/
  inOrder : eventLog.Roomy calls → eventLog.InOrder calls → (∀ event ∈ held, sinceEpoch event = true) →
    ∀ query, MemoryLogs.queryFirewallEvents query events = queryFirewallEvents query p

theorem countP_split {α : Type} (q keep : α → Bool) (l : List α) :
    l.countP q = (l.filter keep).countP q + (l.filter fun a => !keep a).countP q := by
  rw [← List.countP_append]
  exact ((List.filter_append_perm keep l).countP_eq q).symm

/-- **The two back ends agree** on the firewall events after the epoch, as long as none takes the place of another. -/
theorem events_agree (calls : List (LogCall FirewallEvent)) (hfresh : eventLog.Fresh calls) :
    EventsAgree calls (eventLog.held calls) (eventLog.memory calls) (eventLog.persistent calls) := by
  have hperm : ((eventLog.persistent calls).iter.map Sigma.snd).Perm ((eventLog.held calls).filter sinceEpoch) :=
    AuditLog.records_persistent_perm hfresh
  refine ⟨AuditLog.memory_suffix calls, AuditLog.memory_length_le (Nat.succ_pos 4999) calls, hperm,
    fun hroomy cutoff => ?_, fun hroomy query hlimit => ?_, fun hroomy horder hsince query => ?_⟩
  · have hvals : (vals (eventLog.persistent calls)).Perm ((eventLog.held calls).filter sinceEpoch) :=
      AuditLog.vals_persistent_perm hfresh
    rw [AuditLog.memory_eq_held hroomy, MemoryLogs.pruneFirewallEvents, pruneFirewallEvents, AuditLog.pruneMemory_fst,
      AuditLog.prunePersistent_fst, hvals.countP_eq, countP_split (eventLog.older cutoff) sinceEpoch (eventLog.held calls),
      Nat.add_sub_cancel]
  · have hfewer : (((eventLog.held calls).filter sinceEpoch).filter query.selects).length ≤ query.limit.getD 1000 := by
      rw [List.filter_comm]
      exact (List.length_filter_le _ _).trans hlimit
    rw [AuditLog.memory_eq_held hroomy, MemoryLogs.queryFirewallEvents, answer_of_le hlimit, queryFirewallEvents_answer,
      List.filter_comm, ← answer_of_le hfewer]
    exact answer_perm hperm.symm hfewer
  · have hrecords : (eventLog.persistent calls).iter.map Sigma.snd = eventLog.held calls :=
      (AuditLog.records_persistent_eq horder).trans (List.filter_eq_self.mpr hsince)
    rw [AuditLog.memory_eq_held hroomy, queryFirewallEvents_answer, hrecords]
    rfl

/-- An event before the epoch, and one after it. -/
def aroundEpoch : List (LogCall FirewallEvent) :=
  [.store ⟨0, -1, "acme", "100", "200", .block, none, none, none⟩,
    .store ⟨1, 1000000, "acme", "100", "200", .allow, none, none, none⟩]

theorem events_agree_aroundEpoch :
    EventsAgree aroundEpoch (eventLog.held aroundEpoch) (eventLog.memory aroundEpoch) (eventLog.persistent aroundEpoch) :=
  events_agree aroundEpoch
    ((AuditLog.storing_nil.store fun _ h => absurd h List.not_mem_nil).store
      fun r h => List.mem_singleton.mp h ▸ by decide)

end Smppd.Store
