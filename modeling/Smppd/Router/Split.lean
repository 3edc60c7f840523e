/-
  SPLIT: how a weighted split shares out its calls.

  The cumulative weights of `WeightedSplit::new` are the ends of stretches laid end to end, and a call takes
  the first entry whose end lies beyond the counter, reduced modulo the total (`select_eq_owner`).  So one
  time round takes each cluster as often as its entries weigh (`select_shares_exactly`), at whatever counter
  it starts, as long as the 32 bits that are taken of the counter do not wrap on the way.
-/
import Smppd.Lib.Cycle
import Smppd.Router.Selection

namespace Smppd.Router

open Cycle

/-! ## The entries as stretches -/

/-- A split as stretches of a line. -/
def stretches (splits : List TrafficSplit) : List (String × Nat) :=
  splits.map fun s => (s.cluster, s.weight.toNat)

theorem total_stretches (splits : List TrafficSplit) : total (stretches splits) = totalWeight splits := by
  unfold total stretches totalWeight
  rw [List.map_map]
  rfl

theorem mod_lt_total {splits : List TrafficSplit} (hpos : 0 < totalWeight splits) (n : Nat) :
    n % totalWeight splits < total (stretches splits) := by
  rw [total_stretches]
  exact Nat.mod_lt n hpos

/-- The search of `select` finds the owner of the point. -/
theorem find?_accumulate (splits : List TrafficSplit) (sum point : UInt32)
    (hfits : sum.toNat + totalWeight splits < 2 ^ 32) (hpoint : sum.toNat ≤ point.toNat) :
    ((WeightedSplit.accumulate sum splits).1.find? fun c => point < c.2).map Prod.fst =
      owner (stretches splits) (point.toNat - sum.toNat) := by
  induction splits generalizing sum with
  | nil => rfl
  | cons split splits ih =>
    have hweights : totalWeight (split :: splits) = split.weight.toNat + totalWeight splits := List.sum_cons
    have hsum : (sum + split.weight).toNat = sum.toNat + split.weight.toNat := by
      rw [UInt32.toNat_add, Nat.mod_eq_of_lt (by omega)]
    let beyond := fun c : String × UInt32 => decide (point < c.2)
    show (List.find? beyond ((split.cluster, sum + split.weight) ::
      (WeightedSplit.accumulate (sum + split.weight) splits).1)).map Prod.fst =
        if point.toNat - sum.toNat < split.weight.toNat then some split.cluster
        else owner (stretches splits) (point.toNat - sum.toNat - split.weight.toNat)
    by_cases h : point < sum + split.weight
    · have hlt := UInt32.lt_iff_toNat_lt.mp h
      rw [List.find?_cons_of_pos (p := beyond) (decide_eq_true h), if_pos (by omega)]
      rfl
    · have hge := mt UInt32.lt_iff_toNat_lt.mpr h
      rw [List.find?_cons_of_neg (p := beyond) (mt of_decide_eq_true h), if_neg (by omega),
        ih _ (by omega) (by omega)]
      congr 1
      omega

/-! ## One call -/

/-- The state of a split that has been called a number of times. -/
def WeightedSplit.at (splits : List TrafficSplit) (calls : Nat) : WeightedSplit :=
  { WeightedSplit.new splits with counter := UInt64.ofNat calls }

section Calls

variable {splits : List TrafficSplit} (hpos : 0 < totalWeight splits) (hlt : totalWeight splits < 2 ^ 32)
include hpos hlt

/-- A call takes the owner of its counter, and the counter goes on. -/
theorem select_eq_owner (calls : Nat) :
    (WeightedSplit.at splits calls).select =
      (owner (stretches splits) (calls % 2 ^ 32 % totalWeight splits), .at splits (calls + 1)) := by
  have htotal : (WeightedSplit.new splits).totalWeight.toNat = totalWeight splits := by
    show (WeightedSplit.accumulate 0 splits).2.toNat = _
    rw [accumulate_snd, UInt32.toNat_zero, Nat.zero_add, Nat.mod_eq_of_lt hlt]
  have hpoint : ((UInt64.ofNat calls).toUInt32 % (WeightedSplit.new splits).totalWeight).toNat =
      calls % 2 ^ 32 % totalWeight splits := by
    rw [UInt32.toNat_mod, htotal, UInt64.toNat_toUInt32, UInt64.toNat_ofNat']
    congr 1
    omega
  have hnonempty : ¬ ((WeightedSplit.at splits calls).clusters.isEmpty = true ∨
      (WeightedSplit.at splits calls).totalWeight = 0) := by
    rintro (hempty | hzero)
    · cases splits with
      | nil => exact Nat.lt_irrefl 0 hpos
      | cons split splits => cases hempty
    · have hnone := congrArg UInt32.toNat hzero
      rw [UInt32.toNat_zero] at hnone
      exact Nat.ne_of_gt hpos (htotal.symm.trans hnone)
  have hfind := find?_accumulate splits 0 ((UInt64.ofNat calls).toUInt32 % (WeightedSplit.new splits).totalWeight)
    (by rw [UInt32.toNat_zero, Nat.zero_add]; exact hlt) (Nat.zero_le _)
  rw [hpoint, UInt32.toNat_zero, Nat.sub_zero] at hfind
  -- the point is below the total, so the search does not fall through to the last entry
  obtain ⟨e, -, -, howner⟩ := exists_owner (mod_lt_total hpos (calls % 2 ^ 32))
  rw [howner] at hfind ⊢
  obtain ⟨entry, hentry, hname⟩ := Option.map_eq_some_iff.mp hfind
  unfold WeightedSplit.select
  rw [if_neg hnonempty]
  refine Prod.ext ?_ ?_
  · show ((List.find? _ _).or _).map Prod.fst = some e.1
    rw [show (WeightedSplit.at splits calls).clusters.find? (fun c =>
      (WeightedSplit.at splits calls).counter.toUInt32 % (WeightedSplit.at splits calls).totalWeight < c.2) =
        some entry from hentry, Option.some_or, Option.map_some, hname]
  · show { WeightedSplit.new splits with counter := UInt64.ofNat calls + 1 } = WeightedSplit.at splits (calls + 1)
    unfold WeightedSplit.at
    rw [UInt64.ofNat_add]
    rfl

/-- After any number of calls a split is where their number says. -/
theorem after_select (m c : Nat) :
    after WeightedSplit.select m (.at splits c) = .at splits (c + m) := by
  induction m generalizing c with
  | zero => rfl
  | succ m ih =>
    rw [after, select_eq_owner hpos hlt, ih]
    congr 1
    omega

end Calls

/-- **An exact split.**  `W` consecutive calls, where `W` is what the entries weigh, take each cluster as
    often as its entries weigh, and never an entry without weight. -/
theorem select_shares_exactly (splits : List TrafficSplit) (earlier : Nat) (hpos : 0 < totalWeight splits)
    (hlt : totalWeight splits < 2 ^ 32)
    (hwrap : (after WeightedSplit.select earlier (.new splits)).counter.toUInt32.toNat +
      totalWeight splits ≤ 2 ^ 32) :
    (∀ name, (answers WeightedSplit.select (totalWeight splits)
        (after WeightedSplit.select earlier (.new splits))).count (some name) =
          totalWeight (splits.filter fun s => s.cluster = name)) ∧
      ∀ answer ∈ answers WeightedSplit.select (totalWeight splits)
        (after WeightedSplit.select earlier (.new splits)),
          ∃ s ∈ splits, 0 < s.weight.toNat ∧ answer = some s.cluster := by
  have hstart : after WeightedSplit.select earlier (.new splits) = .at splits earlier := by
    have h := after_select hpos hlt earlier 0
    rw [Nat.zero_add] at h
    exact h
  rw [hstart] at hwrap ⊢
  -- as long as the 32 bits do not wrap, the calls go on from where they are
  have hanswers : answers WeightedSplit.select (totalWeight splits) (.at splits earlier) =
      (List.range (totalWeight splits)).map fun k =>
        owner (stretches splits) ((earlier % 2 ^ 32 + k) % totalWeight splits) := by
    rw [answers_eq_map fun k => congrArg Prod.snd (select_eq_owner hpos hlt k)]
    refine List.map_congr_left fun k hk => ?_
    rw [List.mem_range] at hk
    have hcounter : (WeightedSplit.at splits earlier).counter.toUInt32.toNat = earlier % 2 ^ 32 := by
      show (UInt64.ofNat earlier).toUInt32.toNat = _
      rw [UInt64.toNat_toUInt32, UInt64.toNat_ofNat']
      omega
    have hmod : (earlier + k) % 2 ^ 32 = earlier % 2 ^ 32 + k := by omega
    rw [select_eq_owner hpos hlt, hmod]
  rw [hanswers]
  constructor
  · intro name
    have hweight : weightOf name (stretches splits) = totalWeight (splits.filter fun s => s.cluster = name) := by
      rw [← total_stretches]
      unfold weightOf stretches
      rw [List.filter_map]
      rfl
    rw [count_map_range, ← hweight, ← total_stretches]
    exact count_cycle name (stretches splits) _
  · intro answer hanswer
    obtain ⟨k, -, rfl⟩ := List.mem_map.mp hanswer
    obtain ⟨e, he, hweighs, howner⟩ := exists_owner (mod_lt_total hpos (earlier % 2 ^ 32 + k))
    obtain ⟨s, hs, rfl⟩ := List.mem_map.mp he
    exact ⟨s, hs, hweighs, howner⟩

/-- The split of the router's test: seventy to thirty, from the first call on. -/
theorem select_shares_exactly_test :
    (answers WeightedSplit.select 100 (.new [⟨"vodacom", 70⟩, ⟨"mtn", 30⟩])).count (some "mtn") = 30 :=
  (select_shares_exactly [⟨"vodacom", 70⟩, ⟨"mtn", 30⟩] 0 (by decide) (by decide) (by decide)).1 "mtn"

end Smppd.Router
