/-
  `PersistentStorage` (`src/store/persistent.rs`), the part of the call detail records: a partition `cdrs`, in
  which a record stands under the key `cdr_{timestamp}_{message_id}`.

  Records are billed, so none may be lost: a query that excludes none finds all of them, and the statistics count
  each and add up its cost and its revenue.  `MemoryStorage` appends a record to a list, whatever is in the list.
  Here a record takes the place of an earlier one with the same key.

  A key is the list of its characters; UTF-8 orders keys as their characters do.  The sums are `i64` and wrap.
-/
import Mathlib.Algebra.BigOperators.Group.List.Basic
import Smppd.Cdr.Types
import Smppd.Store.Persistent

namespace Smppd.Store

open Table

/-! ## The operations -/

/-- `format!("cdr_{}_{}", cdr.timestamp, cdr.message_id)`. -/
def cdrKey (cdr : Cdr) : Key :=
  ['c', 'd', 'r', '_'] ++ (cdr.timestamp.toList ++ '_' :: cdr.messageId.toList)

/-- `store_cdr`. -/
def storeCdr (cdrs : Partition Cdr) (cdr : Cdr) : Partition Cdr := cdrs.insert (cdrKey cdr) cdr

/-- Query for CDRs, as far as it is looked at. -/
structure CdrQuery where
  esmeId : Option String := none
  messageId : Option String := none
  destinationPrefix : Option String := none
  route : Option String := none
  statusCode : Option UInt32 := none
  /-- Maximum number of results. -/
  limit : Option Nat := none

/-- The record is not skipped. -/
def CdrQuery.selects (query : CdrQuery) (cdr : Cdr) : Bool :=
  query.esmeId.all (fun esme => cdr.esmeId = esme)
    && query.messageId.all (fun msgId => cdr.messageId = msgId)
    && query.destinationPrefix.all (fun p => p.toList.isPrefixOf cdr.destAddr.toList)
    && query.route.all (fun route => cdr.route = some route)
    && query.statusCode.all (fun status => cdr.statusCode = status)

/-- The loop of a query on a partition, which stops once `results` has reached the limit. -/
def collectEntries {α : Type} (selects : α → Bool) (limit : Nat) : List (Sigma fun _ : Key => α) → List α → List α
  | [], results => results
  | e :: rest, results =>
    if limit ≤ results.length then results
    else collectEntries selects limit rest (if selects e.2 then results ++ [e.2] else results)

/-- `query_cdrs`. -/
def queryCdrs (query : CdrQuery) (cdrs : Partition Cdr) : List Cdr :=
  collectEntries query.selects (query.limit.getD 1000) cdrs.iter []

/-- CDR statistics. -/
structure CdrStats where
  /-- Total CDRs stored. -/
  total : UInt64 := 0
  /-- CDRs by type. -/
  byType : Tbl String UInt64 := ∅
  totalRevenue : Int64 := 0
  totalCost : Int64 := 0
  currency : Option String := none

/-- The body of the loop of `cdr_stats`. -/
def CdrStats.add (stats : CdrStats) (cdr : Cdr) : CdrStats where
  total := stats.total + 1
  byType := modify cdr.cdrType.debug (· + 1) (orInsert cdr.cdrType.debug 0 stats.byType)
  totalRevenue :=
    match cdr.revenue with
    | some rev => stats.totalRevenue + rev
    | none => stats.totalRevenue
  totalCost :=
    match cdr.cost with
    | some cost => stats.totalCost + cost
    | none => stats.totalCost
  currency := if stats.currency.isNone then cdr.currency else stats.currency

/-- `cdr_stats`. -/
def cdrStats (cdrs : Partition Cdr) : CdrStats := cdrs.iter.foldl (fun stats e => stats.add e.2) {}

/-! ## What a query finds -/

/-- The loop collects the first records selected, up to the limit. -/
theorem collectEntries_eq {α : Type} (selects : α → Bool) (limit : Nat) (entries : List (Sigma fun _ : Key => α))
    (results : List α) :
    collectEntries selects limit entries results =
      results ++ ((entries.map Sigma.snd).filter selects).take (limit - results.length) := by
  induction entries generalizing results with
  | nil => rw [collectEntries, List.map_nil, List.filter_nil, List.take_nil, List.append_nil]
  | cons e entries ih =>
    rw [collectEntries]
    by_cases hfull : limit ≤ results.length
    · rw [if_pos hfull, Nat.sub_eq_zero_of_le hfull, List.take_zero, List.append_nil]
    · rw [if_neg hfull, ih, List.map_cons]
      by_cases hsel : selects e.2 = true
      · have hroom : limit - results.length = limit - (results.length + 1) + 1 := by
          omega
        rw [if_pos hsel, List.filter_cons_of_pos hsel, List.length_append, List.length_singleton, hroom,
          List.take_succ_cons, List.append_assoc, List.singleton_append]
      · rw [if_neg hsel, List.filter_cons_of_neg hsel]

/-- The records, in the order of their keys. -/
def records (cdrs : Partition Cdr) : List Cdr := cdrs.iter.map Sigma.snd

theorem records_perm (cdrs : Partition Cdr) : (records cdrs).Perm (vals cdrs) := by
  rw [records, Partition.iter]
  exact (List.mergeSort_perm cdrs.entries _).map Sigma.snd

theorem queryCdrs_eq (query : CdrQuery) (cdrs : Partition Cdr) :
    queryCdrs query cdrs = ((records cdrs).filter query.selects).take (query.limit.getD 1000) := by
  rw [queryCdrs, collectEntries_eq]
  rfl

/-- A query without filters: only its limit is given, or not. -/
def unfiltered (limit : Option Nat) : CdrQuery := { limit }

theorem queryCdrs_unfiltered (limit : Option Nat) (cdrs : Partition Cdr) :
    queryCdrs (unfiltered limit) cdrs = (records cdrs).take (limit.getD 1000) := by
  rw [queryCdrs_eq]
  exact congrArg (List.take _) (List.filter_eq_self.mpr fun _ _ => rfl)

/-! ## What the statistics count -/

theorem cdrStats_eq (cdrs : Partition Cdr) : cdrStats cdrs = (records cdrs).foldl CdrStats.add {} := by
  rw [cdrStats, records, List.foldl_map]

/-- The sum of the amounts that are given. -/
def amounts (amount : Cdr → Option Int64) (cdrs : List Cdr) : Int :=
  (cdrs.map fun cdr => ((amount cdr).map Int64.toInt).getD 0).sum

theorem amounts_cons (amount : Cdr → Option Int64) (cdr : Cdr) (cdrs : List Cdr) :
    amounts amount (cdr :: cdrs) = ((amount cdr).map Int64.toInt).getD 0 + amounts amount cdrs := rfl

/-- A sum of the statistics, modulo `2 ^ 64`, when one step adds the amount that is given. -/
theorem foldl_amount {sum : CdrStats → Int64} {amount : Cdr → Option Int64}
    (hstep : ∀ stats cdr, sum (stats.add cdr) =
      match amount cdr with
      | some a => sum stats + a
      | none => sum stats)
    (cdrs : List Cdr) (stats : CdrStats) :
    sum (cdrs.foldl CdrStats.add stats) = sum stats + Int64.ofInt (amounts amount cdrs) := by
  induction cdrs generalizing stats with
  | nil => exact (Int64.add_zero _).symm
  | cons cdr cdrs ih =>
    have hadd : sum (stats.add cdr) = sum stats + Int64.ofInt (((amount cdr).map Int64.toInt).getD 0) := by
      rw [hstep]
      cases amount cdr with
      | none => exact (Int64.add_zero _).symm
      | some a =>
        show sum stats + a = sum stats + Int64.ofInt a.toInt
        rw [Int64.ofInt_toInt]
    rw [List.foldl_cons, ih, hadd, amounts_cons, Int64.ofInt_add, Int64.add_assoc]

theorem foldl_revenue (cdrs : List Cdr) (stats : CdrStats) :
    (cdrs.foldl CdrStats.add stats).totalRevenue =
      stats.totalRevenue + Int64.ofInt (amounts Cdr.revenue cdrs) :=
  foldl_amount (fun _ _ => rfl) cdrs stats

theorem foldl_cost (cdrs : List Cdr) (stats : CdrStats) :
    (cdrs.foldl CdrStats.add stats).totalCost = stats.totalCost + Int64.ofInt (amounts Cdr.cost cdrs) :=
  foldl_amount (fun _ _ => rfl) cdrs stats

theorem foldl_total (cdrs : List Cdr) (stats : CdrStats) :
    (cdrs.foldl CdrStats.add stats).total = stats.total + UInt64.ofNat cdrs.length := by
  induction cdrs generalizing stats with
  | nil => exact (UInt64.add_zero _).symm
  | cons cdr cdrs ih =>
    have hadd : (stats.add cdr).total = stats.total + 1 := rfl
    rw [List.foldl_cons, ih, hadd, List.length_cons, Nat.add_comm, UInt64.ofNat_add, UInt64.add_assoc]
    rfl

theorem debug_injective {t t' : CdrType} (h : t.debug = t'.debug) : t = t' := by
  cases t <;> cases t' <;> first | rfl | exact absurd h (by decide)

/-- The record is of the type. -/
def ofType (t : CdrType) (cdr : Cdr) : Bool := decide (cdr.cdrType = t)

/-- The entry of a type is there once a record of the type is. -/
theorem foldl_byType (t : CdrType) (cdrs : List Cdr) (stats : CdrStats) :
    ((cdrs.foldl CdrStats.add stats).byType.lookup t.debug).getD 0 =
      (stats.byType.lookup t.debug).getD 0 + UInt64.ofNat (cdrs.countP (ofType t)) := by
  induction cdrs generalizing stats with
  | nil => exact (UInt64.add_zero _).symm
  | cons cdr cdrs ih =>
    rw [List.foldl_cons, ih]
    by_cases htype : cdr.cdrType = t
    · have hadd : ((stats.add cdr).byType.lookup t.debug).getD 0 = (stats.byType.lookup t.debug).getD 0 + 1 := by
        rw [CdrStats.add, htype, lookup_modify_self, lookup_orInsert_self]
        rfl
      have hcount : (cdr :: cdrs).countP (ofType t) = cdrs.countP (ofType t) + 1 :=
        List.countP_cons_of_pos (decide_eq_true htype)
      rw [hadd, hcount, Nat.add_comm _ 1, UInt64.ofNat_add, UInt64.add_assoc]
      rfl
    · have hne : t.debug ≠ cdr.cdrType.debug := fun heq => htype (debug_injective heq).symm
      have hadd : (stats.add cdr).byType.lookup t.debug = stats.byType.lookup t.debug := by
        rw [CdrStats.add, lookup_modify_ne _ _ hne, lookup_orInsert_ne _ _ hne]
      have hcount : (cdr :: cdrs).countP (ofType t) = cdrs.countP (ofType t) :=
        List.countP_cons_of_neg fun heq => htype (of_decide_eq_true heq)
      rw [hadd, hcount]

/-! ## Records with one key -/

/-- The texts `{timestamp}_{message_id}` of two records are the same. -/
def Clash (a b : Cdr) : Prop :=
  a.timestamp.toList ++ '_' :: a.messageId.toList = b.timestamp.toList ++ '_' :: b.messageId.toList

/-- No two of the records clash. -/
def Apart (cdrs : List Cdr) : Prop := cdrs.Pairwise fun a b => ¬ Clash a b

theorem nodup_cdrKey_iff (cdrs : List Cdr) : (cdrs.map cdrKey).Nodup ↔ Apart cdrs := by
  have hkey : ∀ a b, cdrKey a = cdrKey b ↔ Clash a b := fun a b => List.append_right_inj _
  rw [List.Nodup, List.pairwise_map, Apart]
  exact List.Pairwise.iff fun a b => not_congr (hkey a b)

/-- A time in RFC 3339 has no underscore: records clash when their times are equal, and their messages. -/
theorem clash_iff {a b : Cdr} (ha : '_' ∉ a.timestamp.toList) (hb : '_' ∉ b.timestamp.toList) :
    Clash a b ↔ a.timestamp = b.timestamp ∧ a.messageId = b.messageId := by
  constructor
  · intro hclash
    obtain ⟨htime, hid⟩ := underscore_inj ha hb hclash
    exact ⟨String.ext htime, String.ext hid⟩
  · rintro ⟨htime, hid⟩
    rw [Clash, htime, hid]

/-- An underscore may stand on either side. -/
example : Clash (Cdr.submit "a_b" "c" "" "" "") (Cdr.submit "a" "b_c" "" "" "") := rfl

/-- What became of a message clashes with its submission, within one instant. -/
theorem clash_submit_delivery (now messageId esmeId sourceAddr destAddr smscMessageId status : String) :
    Clash (Cdr.submit now messageId esmeId sourceAddr destAddr)
      (Cdr.delivery now messageId smscMessageId status) := rfl

/-! ## No record is lost -/

/-- A partition in which no record is lost. -/
structure Kept (cdrs : List Cdr) (p : Partition Cdr) : Prop where
  /-- With a limit that is large enough, a query without filters finds all. -/
  found : ∀ limit, cdrs.length ≤ limit.getD 1000 → (queryCdrs (unfiltered limit) p).Perm cdrs
  total : (cdrStats p).total.toNat = cdrs.length
  byType : ∀ t, (((cdrStats p).byType.lookup t.debug).getD 0).toNat = cdrs.countP (ofType t)
  revenue : (cdrStats p).totalRevenue.toInt = amounts Cdr.revenue cdrs
  cost : (cdrStats p).totalCost.toInt = amounts Cdr.cost cdrs

/-- A sum that is an `i64`. -/
def IsI64 (n : Int) : Prop := -2 ^ 63 ≤ n ∧ n < 2 ^ 63

theorem toInt_ofInt_iff (n : Int) : (Int64.ofInt n).toInt = n ↔ IsI64 n := by
  constructor
  · intro heq
    rw [← heq]
    exact ⟨Int64.le_toInt _, Int64.toInt_lt _⟩
  · rintro ⟨hlow, hhigh⟩
    exact Int64.toInt_ofInt_of_le hlow hhigh

theorem toNat_ofNat_iff (n : Nat) : (UInt64.ofNat n).toNat = n ↔ n < 2 ^ 64 := by
  constructor
  · intro heq
    rw [← heq]
    exact UInt64.toNat_lt _
  · exact UInt64.toNat_ofNat_of_lt'

section Perm

variable {p : Partition Cdr} {cdrs : List Cdr}

/-- The statistics of a partition that holds these records, in any order. -/
theorem cdrStats_total (h : (records p).Perm cdrs) : (cdrStats p).total = UInt64.ofNat cdrs.length := by
  rw [cdrStats_eq, foldl_total, h.length_eq]
  exact UInt64.zero_add _

theorem cdrStats_byType (h : (records p).Perm cdrs) (t : CdrType) :
    ((cdrStats p).byType.lookup t.debug).getD 0 = UInt64.ofNat (cdrs.countP (ofType t)) := by
  rw [cdrStats_eq, foldl_byType, h.countP_eq]
  exact UInt64.zero_add _

theorem amounts_perm (amount : Cdr → Option Int64) {cdrs' : List Cdr} (h : cdrs'.Perm cdrs) :
    amounts amount cdrs' = amounts amount cdrs :=
  (h.map _).sum_eq

theorem cdrStats_totalRevenue (h : (records p).Perm cdrs) :
    (cdrStats p).totalRevenue = Int64.ofInt (amounts Cdr.revenue cdrs) := by
  rw [cdrStats_eq, foldl_revenue, amounts_perm _ h]
  exact Int64.zero_add _

theorem cdrStats_totalCost (h : (records p).Perm cdrs) :
    (cdrStats p).totalCost = Int64.ofInt (amounts Cdr.cost cdrs) := by
  rw [cdrStats_eq, foldl_cost, amounts_perm _ h]
  exact Int64.zero_add _

/-- Where the records are all there, they are found, and they are counted as far as the counters reach. -/
theorem kept_iff_of_perm (h : (records p).Perm cdrs) :
    Kept cdrs p ↔
      cdrs.length < 2 ^ 64 ∧ IsI64 (amounts Cdr.revenue cdrs) ∧ IsI64 (amounts Cdr.cost cdrs) := by
  constructor
  · intro hkept
    refine ⟨?_, ?_, ?_⟩
    · rw [← toNat_ofNat_iff, ← cdrStats_total h]
      exact hkept.total
    · rw [← toInt_ofInt_iff, ← cdrStats_totalRevenue h]
      exact hkept.revenue
    · rw [← toInt_ofInt_iff, ← cdrStats_totalCost h]
      exact hkept.cost
  · rintro ⟨hlength, hrevenue, hcost⟩
    constructor
    · intro limit hlimit
      rw [queryCdrs_unfiltered, List.take_of_length_le (h.length_eq.trans_le hlimit)]
      exact h
    · rw [cdrStats_total h]
      exact (toNat_ofNat_iff _).mpr hlength
    · intro t
      rw [cdrStats_byType h]
      exact (toNat_ofNat_iff _).mpr (List.countP_le_length.trans_lt hlength)
    · rw [cdrStats_totalRevenue h]
      exact (toInt_ofInt_iff _).mpr hrevenue
    · rw [cdrStats_totalCost h]
      exact (toInt_ofInt_iff _).mpr hcost

end Perm

/-- What the partition holds is what a query without filters finds. -/
theorem Kept.records_perm {cdrs : List Cdr} {p : Partition Cdr} (h : Kept cdrs p) : (records p).Perm cdrs := by
  have hfound := h.found (some (cdrs.length + (records p).length)) (Nat.le_add_right _ _)
  rw [queryCdrs_unfiltered, Option.getD_some] at hfound
  rwa [List.take_of_length_le (Nat.le_add_left _ _)] at hfound

/-- The partition after the records have been stored. -/
def stored (cdrs : List Cdr) : Partition Cdr := cdrs.foldl storeCdr ∅

theorem stored_eq (cdrs : List Cdr) : stored cdrs = insertAll cdrKey cdrs ∅ := rfl

/-- **No record is lost** just when no two of them clash: and as far as the counters reach. -/
theorem no_cdr_lost_iff (cdrs : List Cdr) :
    Kept cdrs (stored cdrs) ↔
      Apart cdrs ∧ cdrs.length < 2 ^ 64 ∧ IsI64 (amounts Cdr.revenue cdrs) ∧ IsI64 (amounts Cdr.cost cdrs) := by
  have hperm : (records (stored cdrs)).Perm cdrs ↔ Apart cdrs := by
    rw [← nodup_cdrKey_iff, ← vals_insertAll_perm_iff, ← stored_eq]
    exact ⟨fun h => (records_perm _).symm.trans h, fun h => (records_perm _).trans h⟩
  constructor
  · intro hkept
    exact ⟨hperm.mp hkept.records_perm, (kept_iff_of_perm hkept.records_perm).mp hkept⟩
  · rintro ⟨hapart, hcounters⟩
    exact (kept_iff_of_perm (hperm.mpr hapart)).mpr hcounters

/-- A submission, and its delivery within the same instant. -/
def sameInstant : List Cdr :=
  [Cdr.submit "2024-01-01T00:00:00+00:00" "1" "acme" "100" "200",
    Cdr.delivery "2024-01-01T00:00:00+00:00" "1" "s1" "DELIVRD"]

/-- One of the two records is lost. -/
theorem cdr_lost :
    ¬ Kept sameInstant (stored sameInstant) ∧
      queryCdrs (unfiltered (some 2)) (stored sameInstant) =
        [Cdr.delivery "2024-01-01T00:00:00+00:00" "1" "s1" "DELIVRD"] ∧
      (cdrStats (stored sameInstant)).total = 1 := by
  have hstored : stored sameInstant =
      AList.singleton (cdrKey (Cdr.delivery "2024-01-01T00:00:00+00:00" "1" "s1" "DELIVRD"))
        (Cdr.delivery "2024-01-01T00:00:00+00:00" "1" "s1" "DELIVRD") :=
    AList.insert_insert ∅
  have hrecords : records (stored sameInstant) =
      [Cdr.delivery "2024-01-01T00:00:00+00:00" "1" "s1" "DELIVRD"] := by
    rw [hstored, records, Partition.iter, AList.singleton_entries, List.mergeSort_singleton]
    rfl
  refine ⟨?_, ?_, ?_⟩
  · intro hkept
    have hlength := hkept.records_perm.length_eq
    rw [hrecords] at hlength
    cases hlength
  · rw [queryCdrs_unfiltered, hrecords]
    rfl
  · rw [cdrStats_eq, hrecords]
    rfl

end Smppd.Store
