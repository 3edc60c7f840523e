/-
  WEIGHTS: whose weight counts when only some endpoints are healthy.

  `Weighted` and `WeightedLeastConn` keep the weights in the order of the configuration, and look them up by
  the position in the list of healthy endpoints they are handed.  So what they do is known for every such list:

  * `Weighted` goes round a line on which the endpoints have the weights of their positions, and the first has
    what is left of the total besides (`line`, `count_of_cycle`);
  * `WeightedLeastConn` takes the first endpoint whose connections are least relative to the weight of its
    position (`select_eq_ok`).

  `weights_follow_iff` says when that is fair by the endpoints' own weights: when these stand to each other as
  the weights of the positions do.
-/
import Mathlib.Algebra.Order.Field.Rat
import Mathlib.Algebra.Order.GroupWithZero.Basic
import Smppd.Lib.Cycle
import Smppd.Cluster.Balancers

set_option linter.dupNamespace false

namespace Smppd.Cluster

open Overflow Fallible Cycle

variable {α : Type}

/-- The configured weights, in their order. -/
def weightsOf (config : ClusterConfig) : List ℕ := config.endpoints.map fun e => e.weight.toNat

/-! ## Going round by weight -/

/-- What falls to the positions of a list of `n` endpoints: the weights of the positions, and to the first what
    is configured for positions that the list does not have. -/
def shares (n : ℕ) : List ℕ → List ℕ
  | [] => []
  | w :: ws => (w + (ws.drop (n - 1)).sum) :: ws

theorem length_shares (n : ℕ) (ws : List ℕ) : (shares n ws).length = ws.length := by
  cases ws with
  | nil => rfl
  | cons w ws => rfl

/-- The line that `Weighted` goes round. -/
def line (ws : List ℕ) : List α → List (α × ℕ)
  | [] => []
  | ep :: rest => (ep :: rest).zip ws ++ [(ep, (ws.drop (rest.length + 1)).sum)]

theorem total_zip {l : List α} {ws : List ℕ} (h : l.length ≤ ws.length) :
    total (l.zip ws) = (ws.take l.length).sum := by
  induction l generalizing ws with
  | nil => rfl
  | cons a l ih =>
    cases ws with
    | nil => exact absurd h (Nat.not_succ_le_zero l.length)
    | cons w ws =>
      rw [List.zip_cons_cons, total_cons, ih (Nat.le_of_succ_le_succ h), List.length_cons, List.take_succ_cons,
        List.sum_cons]

theorem total_line {ep : α} {rest : List α} {ws : List ℕ} (h : rest.length + 1 ≤ ws.length) :
    total (line ws (ep :: rest)) = ws.sum := by
  have hzip : total ((ep :: rest).zip ws) = (ws.take (rest.length + 1)).sum := total_zip h
  unfold line
  unfold total at hzip ⊢
  rw [List.map_append, List.sum_append, hzip, List.map_singleton, List.sum_singleton, List.sum_take_add_sum_drop]

/-- On its line an endpoint has its share. -/
theorem weightOf_line [DecidableEq α] {l : List α} (hnodup : l.Nodup) {ws : List ℕ}
    (hlen : l.length ≤ ws.length) {p : α × ℕ} (hp : p ∈ l.zip (shares l.length ws)) : weightOf p.1 (line ws l) = p.2 := by
  cases l with
  | nil => exact absurd hp List.not_mem_nil
  | cons ep rest =>
    cases ws with
    | nil => exact absurd hp List.not_mem_nil
    | cons w ws =>
      have hlabels : (((ep :: rest).zip (shares (rest.length + 1) (w :: ws))).map Prod.fst).Nodup := by
        rw [List.map_fst_zip (by rw [length_shares]; exact hlen)]
        exact hnodup
      have hweight := weightOf_of_mem hlabels (a := p.1) (w := p.2) hp
      -- the piece at the end of the line belongs to the first endpoint
      rw [← hweight]
      unfold line
      rw [weightOf_concat, weightOf_cons]
      show _ + weightOf p.1 ((ep, w) :: rest.zip ws) =
        weightOf p.1 ((ep, w + (ws.drop rest.length).sum) :: rest.zip ws)
      rw [weightOf_cons, weightOf_cons, List.drop_succ_cons]
      split
      · omega
      · omega

namespace Weighted

theorem new_eq_ok {config : ClusterConfig} {lb : Weighted} :
    Weighted.new config.endpoints = .ok lb ↔ (weightsOf config).sum < 2 ^ 32 ∧
      lb = { weights := config.endpoints.map fun e => e.weight, totalWeight := (weightsOf config).sum } := by
  have hweights : (config.endpoints.map fun e => e.weight).map UInt32.toNat = weightsOf config := List.map_map
  unfold Weighted.new
  dsimp only
  rw [hweights, bind_eq_ok]
  constructor
  · rintro ⟨total, hsum, hpure⟩
    obtain ⟨hfits, rfl⟩ := (sum_eq_ok (by decide)).mp hsum
    rw [Nat.zero_add] at hfits hpure
    cases hpure
    exact ⟨hfits, rfl⟩
  · rintro ⟨hfits, rfl⟩
    refine ⟨(weightsOf config).sum, (sum_eq_ok (by decide)).mpr ?_, rfl⟩
    rw [Nat.zero_add]
    exact ⟨hfits, rfl⟩

/-- The loop finds the owner of the target among the weights of the positions. -/
theorem walk_eq {weights : List UInt32} {target : ℕ} {endpoints : List α} {accumulated i : ℕ}
    (hlen : i + endpoints.length ≤ weights.length)
    (hfits : accumulated + ((weights.drop i).map UInt32.toNat).sum < 2 ^ 32) (htarget : accumulated ≤ target) :
    walk weights target accumulated i endpoints =
      .ok (owner (endpoints.zip ((weights.drop i).map UInt32.toNat)) (target - accumulated)) := by
  induction endpoints generalizing accumulated i with
  | nil => rfl
  | cons ep endpoints ih =>
    rw [List.length_cons] at hlen
    have hi : i < weights.length := by omega
    have hweight : weights[i]?.getD 1 = weights[i] := by rw [List.getElem?_eq_getElem hi, Option.getD_some]
    rw [List.drop_eq_getElem_cons hi, List.map_cons, List.sum_cons] at hfits
    rw [List.drop_eq_getElem_cons hi, List.map_cons, List.zip_cons_cons, owner, walk, hweight]
    have hstep : u32 (accumulated + weights[i].toNat) = .ok (accumulated + weights[i].toNat) :=
      within_eq_ok.mpr ⟨by omega, rfl⟩
    rw [hstep]
    show (if target < accumulated + weights[i].toNat then pure (some ep)
      else walk weights target (accumulated + weights[i].toNat) (i + 1) endpoints) = _
    by_cases h : target < accumulated + weights[i].toNat
    · rw [if_pos h, if_pos (by omega)]
      rfl
    · rw [if_neg h, if_neg (by omega), ih (by omega) (by omega) (by omega), Nat.sub_sub]

/-- A call takes the owner of its counter on the line, and the counter goes on. -/
theorem select_eq {lb : Weighted} {ep : α} {rest : List α} (hlen : rest.length + 1 ≤ lb.weights.length)
    (htotal : lb.totalWeight = (lb.weights.map UInt32.toNat).sum) (hpos : 0 < lb.totalWeight)
    (hfits : lb.totalWeight < 2 ^ 32) :
    lb.select (ep :: rest) = (.ok (owner (line (lb.weights.map UInt32.toNat) (ep :: rest))
      (lb.counter.toUInt32.toNat % lb.totalWeight)), { lb with counter := lb.counter + 1 }) := by
  let target := lb.counter.toUInt32.toNat % lb.totalWeight
  have htarget : target < lb.totalWeight := Nat.mod_lt _ hpos
  have hwalk : walk lb.weights target 0 0 (ep :: rest) =
      .ok (owner ((ep :: rest).zip (lb.weights.map UInt32.toNat)) target) := by
    refine walk_eq ?_ ?_ (Nat.zero_le _)
    · rw [List.length_cons, Nat.zero_add]
      exact hlen
    · rw [List.drop_zero, Nat.zero_add, ← htotal]
      exact hfits
  have hnone : ¬ ((ep :: rest).isEmpty = true ∨ lb.totalWeight = 0) := by
    rintro (hempty | hzero)
    · cases hempty
    · omega
  -- what the loop does not reach is left to the first endpoint
  have hline : total (line (lb.weights.map UInt32.toNat) (ep :: rest)) = (lb.weights.map UInt32.toNat).sum := by
    refine total_line ?_
    rw [List.length_map]
    exact hlen
  have hfound : (owner ((ep :: rest).zip (lb.weights.map UInt32.toNat)) target).or (some ep) =
      owner (line (lb.weights.map UInt32.toNat) (ep :: rest)) target := by
    unfold line at hline ⊢
    rw [owner_append]
    split
    · rename_i hlt
      obtain ⟨e, -, -, howner⟩ := exists_owner hlt
      rw [howner, Option.some_or]
    · rename_i hge
      have hlast : target - total ((ep :: rest).zip (lb.weights.map UInt32.toNat)) <
          ((lb.weights.map UInt32.toNat).drop (rest.length + 1)).sum := by
        unfold total at hline hge ⊢
        rw [List.map_append, List.sum_append, List.map_singleton, List.sum_singleton] at hline
        omega
      rw [owner_eq_none (Nat.not_lt.mp hge), Option.none_or, owner, if_pos hlast]
  unfold Weighted.select
  rw [if_neg hnone, ← hfound]
  show ((do let found ← walk lb.weights target 0 0 (ep :: rest); pure (found.or (some ep))), _) = _
  rw [hwalk]
  rfl

/-- **A full cycle.**  As many consecutive calls as the weights make up give every endpoint its share. -/
theorem count_of_cycle [DecidableEq α] {lb : Weighted} {l : List α} (hnodup : l.Nodup)
    (hlen : l.length ≤ lb.weights.length) (htotal : lb.totalWeight = (lb.weights.map UInt32.toNat).sum)
    (hfits : lb.totalWeight < 2 ^ 32) (hwrap : lb.counter.toUInt32.toNat + lb.totalWeight ≤ 2 ^ 32)
    {p : α × ℕ} (hp : p ∈ l.zip (shares l.length (lb.weights.map UInt32.toNat))) :
    (answers (fun lb => lb.select l) lb.totalWeight lb).count (.ok (some p.1)) = p.2 := by
  cases l with
  | nil => exact absurd hp List.not_mem_nil
  | cons ep rest =>
    have hlen' : rest.length + 1 ≤ (lb.weights.map UInt32.toNat).length := by
      rw [List.length_map]
      exact hlen
    have hline : total (line (lb.weights.map UInt32.toNat) (ep :: rest)) = (lb.weights.map UInt32.toNat).sum :=
      total_line hlen'
    rw [← htotal] at hline
    have hcount := fun c => count_cycle p.1 (line (lb.weights.map UInt32.toNat) (ep :: rest)) c
    rw [← weightOf_line hnodup hlen' hp, ← hcount lb.counter.toUInt32.toNat, hline]
    rcases Nat.eq_zero_or_pos lb.totalWeight with hzero | hpos
    · rw [hzero]
      rfl
    · -- the calls go on from counter to counter
      let state : ℕ → Weighted := fun k => { lb with counter := lb.counter + UInt64.ofNat k }
      have hstep : ∀ k, (state k).select (ep :: rest) =
          (.ok (owner (line (lb.weights.map UInt32.toNat) (ep :: rest))
            ((lb.counter + UInt64.ofNat k).toUInt32.toNat % lb.totalWeight)), state (k + 1)) := by
        intro k
        show _ = (_, ({ lb with counter := lb.counter + UInt64.ofNat (k + 1) } : Weighted))
        rw [UInt64.ofNat_add, ← UInt64.add_assoc]
        exact select_eq hlen htotal hpos hfits
      have hstart : state 0 = lb := by
        show ({ lb with counter := lb.counter + 0 } : Weighted) = lb
        rw [UInt64.add_zero]
      have hanswers : answers (fun lb => lb.select (ep :: rest)) lb.totalWeight (state 0) =
          (List.range lb.totalWeight).map fun k => .ok (owner (line (lb.weights.map UInt32.toNat) (ep :: rest))
            ((lb.counter.toUInt32.toNat + k) % lb.totalWeight)) := by
        have hnext : ∀ k, ((state k).select (ep :: rest)).2 = state (k + 1) := fun k => congrArg Prod.snd (hstep k)
        rw [answers_eq_map hnext]
        refine List.map_congr_left fun k hk => ?_
        rw [List.mem_range] at hk
        have hcounter : (lb.counter + UInt64.ofNat (0 + k)).toUInt32.toNat = lb.counter.toUInt32.toNat + k := by
          rw [UInt64.toNat_toUInt32, UInt64.toNat_add, UInt64.toNat_ofNat']
          rw [UInt64.toNat_toUInt32] at hwrap ⊢
          omega
        rw [hstep, hcounter]
      rw [hstart] at hanswers
      rw [hanswers, count_map_range]
      simp only [Except.ok.injEq]

end Weighted

/-! ## Least loaded -/

/-- Connections relative to a weight. -/
def load (connections : UInt64) (weight : ℕ) : ℚ := (connections.toNat : ℚ) / (weight : ℚ)

theorem load_lt_iff {a b : UInt64} {v w : ℕ} (hv : 0 < v) (hw : 0 < w) :
    load a v < load b w ↔ a.toNat * w < b.toNat * v := by
  unfold load
  rw [div_lt_div_iff₀ (Nat.cast_pos.mpr hv) (Nat.cast_pos.mpr hw), ← Nat.cast_mul, ← Nat.cast_mul, Nat.cast_lt]

namespace WeightedLeastConn

variable {configs : List EndpointConfig} {active : α → UInt64}

theorem toNat_max_one (w : UInt32) : (max w 1).toNat = max w.toNat 1 := by
  show (if w ≤ 1 then 1 else w).toNat = max w.toNat 1
  split
  · rename_i h
    have hle : w.toNat ≤ 1 := UInt32.le_iff_toNat_le.mp h
    rw [Nat.max_eq_right hle]
    rfl
  · rename_i h
    have hlt : ¬ w.toNat ≤ (1 : UInt32).toNat := mt UInt32.le_iff_toNat_le.mpr h
    have hone : (1 : UInt32).toNat = 1 := rfl
    rw [Nat.max_eq_left (by omega)]

/-- A weight of zero counts as one. -/
theorem weight_new (configs : List EndpointConfig) (i : ℕ) :
    (new configs).weight i = max ((configs[i]?.map fun e => e.weight.toNat).getD 1) 1 := by
  unfold weight new
  rw [List.getElem?_map]
  cases configs[i]? with
  | none => rfl
  | some e => exact toNat_max_one e.weight

theorem weight_pos (configs : List EndpointConfig) (i : ℕ) : 0 < (new configs).weight i := by
  rw [weight_new]
  omega

/-- How an endpoint is rated at its position: its connections relative to the weight of the position. -/
def rate (self : WeightedLeastConn) (active : α → UInt64) (p : α × ℕ) : ℚ := load (active p.1) (self.weight p.2)

/-- The scores of two endpoints at their positions fit. -/
def Fit (self : WeightedLeastConn) (active : α → UInt64) (a b : α × ℕ) : Prop :=
  (active a.1).toNat * self.weight b.2 < 2 ^ 64 ∧ (active b.1).toNat * self.weight a.2 < 2 ^ 64

theorem greater_eq_ok {a b : α × ℕ} {r : Bool} : (new configs).greater active a b = .ok r ↔
    (new configs).Fit active a b ∧ (r = true ↔ (new configs).rate active b < (new configs).rate active a) := by
  have hrate : (new configs).rate active b < (new configs).rate active a ↔
      (active b.1).toNat * (new configs).weight a.2 < (active a.1).toNat * (new configs).weight b.2 :=
    load_lt_iff (weight_pos _ _) (weight_pos _ _)
  rw [hrate]
  unfold greater Fit
  simp only [bind_eq_ok, within_eq_ok]
  constructor
  · rintro ⟨_, ⟨hfirst, rfl⟩, _, ⟨hsecond, rfl⟩, hpure⟩
    cases hpure
    exact ⟨⟨hfirst, hsecond⟩, decide_eq_true_iff⟩
  · rintro ⟨⟨hfirst, hsecond⟩, hr⟩
    refine ⟨_, ⟨hfirst, rfl⟩, _, ⟨hsecond, rfl⟩, congrArg Except.ok ?_⟩
    exact Bool.eq_iff_iff.mpr (decide_eq_true_iff.trans hr.symm)

/-- A comparison has a result exactly when the scores fit. -/
theorem exists_greater_iff {a b : α × ℕ} :
    (∃ r, (new configs).greater active a b = .ok r) ↔ (new configs).Fit active a b := by
  constructor
  · rintro ⟨r, hr⟩
    exact (greater_eq_ok.mp hr).1
  · intro hfit
    classical
    exact ⟨decide ((new configs).rate active b < (new configs).rate active a),
      greater_eq_ok.mpr ⟨hfit, decide_eq_true_iff⟩⟩

/-- The scores that a call compares fit: those of an endpoint and of the first of the least before it. -/
def ScoresFit (self : WeightedLeastConn) (active : α → UInt64) (endpoints : List α) : Prop :=
  ∀ before b after best, endpoints.zipIdx = before ++ b :: after → First (self.rate active) before best →
    self.Fit active best b

/-- A call takes the first endpoint of least rate, if the scores it compares fit. -/
theorem select_eq_ok {endpoints : List α} {ep : α} : (new configs).select active endpoints = .ok (some ep) ↔
    (∃ i, First ((new configs).rate active) endpoints.zipIdx (ep, i)) ∧
      (new configs).ScoresFit active endpoints := by
  have hcmp : Comparable ((new configs).rate active) ((new configs).greater active) [] endpoints.zipIdx ↔
      (new configs).ScoresFit active endpoints := by
    unfold Comparable ScoresFit
    simp only [exists_greater_iff, List.nil_append]
  have hgreater : ∀ a b r, (new configs).greater active a b = .ok r →
      (r = true ↔ (new configs).rate active b < (new configs).rate active a) :=
    fun a b r h => (greater_eq_ok.mp h).2
  have hmin : ∀ a, minBy ((new configs).greater active) endpoints.zipIdx = .ok (some a) ↔
      First ((new configs).rate active) endpoints.zipIdx a ∧
        Comparable ((new configs).rate active) ((new configs).greater active) [] endpoints.zipIdx :=
    fun a => minBy_eq_ok hgreater
  unfold select
  rw [bind_eq_ok]
  constructor
  · rintro ⟨best, hbest, hpure⟩
    obtain ⟨a, rfl, rfl⟩ := Option.map_eq_some_iff.mp (Except.ok.inj hpure)
    obtain ⟨hfirst, hall⟩ := (hmin a).mp hbest
    exact ⟨⟨a.2, hfirst⟩, hcmp.mp hall⟩
  · rintro ⟨⟨i, hfirst⟩, hall⟩
    exact ⟨some (ep, i), (hmin (ep, i)).mpr ⟨hfirst, hcmp.mpr hall⟩, rfl⟩

end WeightedLeastConn

/-! ## What is asked, and when it is so -/

section Follow

variable (config : ClusterConfig) (cells : Endpoint → Endpoint.Cells)

/-- The healthy endpoints, as `get_connection` passes them. -/
abbrev healthyOf : List Endpoint := (Cluster.new config).healthy cells

/-- The calls of one cycle. -/
def cycle (lb : Weighted) : List (Except Overflow (Option Endpoint)) :=
  answers (fun lb => lb.select (healthyOf config cells)) lb.totalWeight lb

/-- Wherever a cycle starts, any two healthy endpoints are selected in the proportion of their own weights.
    The cycle is one during which the 32 bits of the counter do not wrap. -/
def InProportion : Prop :=
  ∃ lb, Weighted.new config.endpoints = .ok lb ∧ ∀ counter : UInt64,
    counter.toUInt32.toNat + lb.totalWeight ≤ 2 ^ 32 → ∀ e ∈ healthyOf config cells, ∀ f ∈ healthyOf config cells,
      (cycle config cells { lb with counter := counter }).count (.ok (some e)) * f.weight.toNat =
        (cycle config cells { lb with counter := counter }).count (.ok (some f)) * e.weight.toNat

/-- The connections of an endpoint relative to its own weight, where a weight of zero counts as one. -/
def ownLoad (ep : Endpoint) : ℚ := load (cells ep).activeConnections (max ep.weight.toNat 1)

/-- If there is a healthy endpoint, one with the least load by its own weight is selected. -/
def LeastLoaded : Prop :=
  healthyOf config cells ≠ [] → ∃ ep, (WeightedLeastConn.new config.endpoints).select
    (fun ep => (cells ep).activeConnections) (healthyOf config cells) = .ok (some ep) ∧
      ∀ other ∈ healthyOf config cells, ownLoad cells ep ≤ ownLoad cells other

/-- The weights add up in `u32`, and the shares of the positions stand to each other as the weights of the
    endpoints at them. -/
def SharesMatch : Prop :=
  (weightsOf config).sum < 2 ^ 32 ∧
    ∀ p ∈ (healthyOf config cells).zip (shares (healthyOf config cells).length (weightsOf config)),
      ∀ q ∈ (healthyOf config cells).zip (shares (healthyOf config cells).length (weightsOf config)),
        p.2 * q.1.weight.toNat = q.2 * p.1.weight.toNat

/-- The scores that are compared fit `usize`, and the first endpoint of least load by the weight of its
    position has the least load by its own weight. -/
def LeastMatch : Prop :=
  (WeightedLeastConn.new config.endpoints).ScoresFit (fun ep => (cells ep).activeConnections)
      (healthyOf config cells) ∧
    ∀ ep i, First ((WeightedLeastConn.new config.endpoints).rate fun ep => (cells ep).activeConnections)
      (healthyOf config cells).zipIdx (ep, i) → ∀ other ∈ healthyOf config cells, ownLoad cells ep ≤ ownLoad cells other

variable {config cells}

theorem length_healthyOf_le : (healthyOf config cells).length ≤ (weightsOf config).length := by
  have hfilter : (healthyOf config cells).length ≤ (buildEndpoints config.name config.endpoints).length :=
    List.length_filter_le _ _
  rw [length_buildEndpoints] at hfilter
  unfold weightsOf
  rw [List.length_map]
  exact hfilter

/-- What a cycle gives an endpoint. -/
theorem count_cycle_eq {lb : Weighted} (hnew : Weighted.new config.endpoints = .ok lb) {counter : UInt64}
    (hwrap : counter.toUInt32.toNat + lb.totalWeight ≤ 2 ^ 32) {p : Endpoint × ℕ}
    (hp : p ∈ (healthyOf config cells).zip (shares (healthyOf config cells).length (weightsOf config))) :
    (cycle config cells { lb with counter := counter }).count (.ok (some p.1)) = p.2 := by
  obtain ⟨hfits, rfl⟩ := Weighted.new_eq_ok.mp hnew
  have hweights : (config.endpoints.map fun e => e.weight).map UInt32.toNat = weightsOf config := List.map_map
  refine Weighted.count_of_cycle (nodup_healthy config cells) ?_ (congrArg List.sum hweights).symm hfits hwrap ?_
  · rw [List.length_map, ← List.length_map (f := fun e : EndpointConfig => e.weight.toNat)]
    exact length_healthyOf_le
  · show p ∈ (healthyOf config cells).zip (shares (healthyOf config cells).length
      ((config.endpoints.map fun e => e.weight).map UInt32.toNat))
    rw [hweights]
    exact hp

theorem inProportion_iff : InProportion config cells ↔ SharesMatch config cells := by
  have hlen : (healthyOf config cells).length ≤ (shares (healthyOf config cells).length (weightsOf config)).length := by
    rw [length_shares]
    exact length_healthyOf_le
  have hshare : ∀ e ∈ healthyOf config cells,
      ∃ n, (e, n) ∈ (healthyOf config cells).zip (shares (healthyOf config cells).length (weightsOf config)) := by
    intro e he
    rw [← List.map_fst_zip hlen] at he
    obtain ⟨p, hp, rfl⟩ := List.mem_map.mp he
    exact ⟨p.2, hp⟩
  constructor
  · rintro ⟨lb, hnew, hcycle⟩
    obtain ⟨hfits, hlb⟩ := Weighted.new_eq_ok.mp hnew
    refine ⟨hfits, fun p hp q hq => ?_⟩
    have hwrap : (0 : UInt64).toUInt32.toNat + lb.totalWeight ≤ 2 ^ 32 := by
      rw [hlb]
      show 0 + (weightsOf config).sum ≤ 2 ^ 32
      omega
    have heq := hcycle 0 hwrap p.1 (List.of_mem_zip hp).1 q.1 (List.of_mem_zip hq).1
    rw [count_cycle_eq hnew hwrap hp, count_cycle_eq hnew hwrap hq] at heq
    exact heq
  · rintro ⟨hfits, hmatch⟩
    refine ⟨_, Weighted.new_eq_ok.mpr ⟨hfits, rfl⟩, fun counter hwrap e he f hf => ?_⟩
    obtain ⟨n, hn⟩ := hshare e he
    obtain ⟨m, hm⟩ := hshare f hf
    rw [count_cycle_eq (Weighted.new_eq_ok.mpr ⟨hfits, rfl⟩) hwrap hn,
      count_cycle_eq (Weighted.new_eq_ok.mpr ⟨hfits, rfl⟩) hwrap hm]
    exact hmatch (e, n) hn (f, m) hm

theorem leastLoaded_iff : LeastLoaded config cells ↔ LeastMatch config cells := by
  constructor
  · intro hleast
    by_cases hsome : healthyOf config cells = []
    · refine ⟨fun before b after best hl => ?_, fun ep i h => ?_⟩
      · rw [hsome] at hl
        cases before with
        | nil => cases hl
        | cons c before => cases hl
      · rw [hsome] at h
        exact absurd h.mem List.not_mem_nil
    · obtain ⟨ep, hselect, hmin⟩ := hleast hsome
      obtain ⟨⟨i, hi⟩, hfit⟩ := WeightedLeastConn.select_eq_ok.mp hselect
      refine ⟨hfit, fun ep' i' h => ?_⟩
      obtain ⟨rfl, rfl⟩ := Prod.mk.inj (hi.unique h)
      exact hmin
  · rintro ⟨hfit, hmin⟩ hsome
    have hzip : (healthyOf config cells).zipIdx ≠ [] := mt List.zipIdx_eq_nil_iff.mp hsome
    obtain ⟨⟨ep, i⟩, hi⟩ := exists_first ((WeightedLeastConn.new config.endpoints).rate
      fun ep => (cells ep).activeConnections) hzip
    exact ⟨ep, WeightedLeastConn.select_eq_ok.mpr ⟨⟨i, hi⟩, hfit⟩, hmin ep i hi⟩

end Follow

/-- **Weights follow their endpoints** exactly when the weights at the positions of the healthy endpoints do
    what their own would. -/
theorem weights_follow_iff (config : ClusterConfig) (cells : Endpoint → Endpoint.Cells) :
    InProportion config cells ∧ LeastLoaded config cells ↔ SharesMatch config cells ∧ LeastMatch config cells :=
  and_congr inProportion_iff leastLoaded_iff

/-- While every endpoint is healthy, positions are those of the configuration, and the weights follow. -/
theorem weights_follow_of_all_healthy {config : ClusterConfig} {cells : Endpoint → Endpoint.Cells}
    (hall : ∀ ep ∈ (Cluster.new config).endpoints, (cells ep).isHealthy = true)
    (hsum : (weightsOf config).sum < 2 ^ 32)
    (hfit : (WeightedLeastConn.new config.endpoints).ScoresFit (fun ep => (cells ep).activeConnections)
      (Cluster.new config).endpoints) : InProportion config cells ∧ LeastLoaded config cells := by
  have hup : healthyOf config cells = buildEndpoints config.name config.endpoints :=
    List.filter_eq_self.mpr hall
  have hweight : ∀ (i : ℕ) (ep : Endpoint), (buildEndpoints config.name config.endpoints)[i]? = some ep →
      config.endpoints[i]?.map (fun e => e.weight.toNat) = some ep.weight.toNat := by
    intro i ep hep
    unfold buildEndpoints at hep
    rw [List.getElem?_mapIdx] at hep
    obtain ⟨e, he, rfl⟩ := Option.map_eq_some_iff.mp hep
    rw [he]
    rfl
  rw [inProportion_iff, leastLoaded_iff]
  refine ⟨⟨hsum, fun p hp q hq => ?_⟩, hup ▸ hfit, fun ep i hi other hother => ?_⟩
  · -- every endpoint has the share that is its own weight
    have hown : ∀ p ∈ (healthyOf config cells).zip (shares (healthyOf config cells).length (weightsOf config)),
        p.2 = p.1.weight.toNat := by
      intro p hp
      rw [hup, length_buildEndpoints] at hp
      have hshares : shares config.endpoints.length (weightsOf config) = weightsOf config := by
        unfold weightsOf
        cases config.endpoints with
        | nil => rfl
        | cons e rest =>
          show (_ + ((rest.map fun e => e.weight.toNat).drop rest.length).sum) :: _ = _
          rw [List.drop_eq_nil_of_le (Nat.le_of_eq (List.length_map _))]
          rfl
      rw [hshares] at hp
      obtain ⟨i, hi⟩ := List.mem_iff_getElem?.mp hp
      obtain ⟨hep, hw⟩ := List.getElem?_zip_eq_some.mp hi
      have hconfigured := hweight i p.1 hep
      unfold weightsOf at hw
      rw [List.getElem?_map, hconfigured] at hw
      exact (Option.some.inj hw).symm
    rw [hown p hp, hown q hq]
    exact Nat.mul_comm _ _
  · have hrate : ∀ p ∈ (healthyOf config cells).zipIdx, (WeightedLeastConn.new config.endpoints).rate
        (fun ep => (cells ep).activeConnections) p = ownLoad cells p.1 := by
      intro p hp
      rw [hup] at hp
      unfold WeightedLeastConn.rate ownLoad
      rw [WeightedLeastConn.weight_new, hweight p.2 p.1 (List.mk_mem_zipIdx_iff_getElem?.mp hp), Option.getD_some]
    obtain ⟨j, hj⟩ := List.mem_iff_getElem?.mp hother
    have hmem : (other, j) ∈ (healthyOf config cells).zipIdx := List.mk_mem_zipIdx_iff_getElem?.mpr hj
    have hle := first_le hi hmem
    rw [hrate _ hi.mem, hrate _ hmem] at hle
    exact hle

/-! ## One endpoint down -/

/-- Three endpoints, the last of which can take most. -/
def oneLarge : ClusterConfig where
  name := "upstream"
  endpoints := [⟨"smsc1:2775", "id", "pw", "", 1⟩, ⟨"smsc2:2775", "id", "pw", "", 1⟩,
    ⟨"smsc3:2775", "id", "pw", "", 8⟩]

/-- The first of them is not healthy; the others have two connections and three. -/
def firstDown (ep : Endpoint) : Endpoint.Cells :=
  { cellsOf (fun ep => decide (ep.index ≠ 0)) ep with activeConnections := UInt64.ofNat (ep.index + 1) }

/-- With the first endpoint down, the weight of the third goes to the second, and counts for neither. -/
theorem weights_fail_on_first_down : ¬ InProportion oneLarge firstDown ∧ ¬ LeastLoaded oneLarge firstDown := by
  rw [inProportion_iff, leastLoaded_iff]
  let second : Endpoint := Endpoint.new "upstream" 1 ⟨"smsc2:2775", "id", "pw", "", 1⟩
  let third : Endpoint := Endpoint.new "upstream" 2 ⟨"smsc3:2775", "id", "pw", "", 8⟩
  have hhealthy : healthyOf oneLarge firstDown = [second, third] := rfl
  constructor
  · rintro ⟨-, hmatch⟩
    rw [hhealthy] at hmatch
    -- nine calls of ten for the second, one for the third
    have hcross := hmatch (second, 9) List.mem_cons_self (third, 1) (List.mem_cons_of_mem _ List.mem_cons_self)
    exact absurd hcross (by decide)
  · rintro ⟨-, hmin⟩
    rw [hhealthy] at hmin
    have hless : ¬ ownLoad firstDown second ≤ ownLoad firstDown third := by
      rw [not_le]
      exact (load_lt_iff (by decide) (by decide)).mpr (by decide)
    refine hless (hmin second 0 ⟨[], [(third, 1)], rfl, trivial, nofun, fun b hb _ => ?_⟩ third
      (List.mem_cons_of_mem _ List.mem_cons_self))
    obtain rfl := List.mem_singleton.mp hb
    exact le_of_lt ((load_lt_iff (by decide) (by decide)).mpr (by decide))

end Smppd.Cluster
