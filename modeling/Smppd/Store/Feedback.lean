/-
  The FEEDBACK part of `MemoryStorage` (`src/store/memory.rs`, with the types of `src/feedback/types.rs`):
  decisions and their outcomes, counted per decision type and per target.

  Three maps under three locks.  A decision waits in `decisions` for its outcome; an outcome that finds its
  decision there is counted in `type_stats` and in `target_stats`, and one that does not is DROPPED.  Decisions
  leave the map when there are too many of them or when they are too old, and nothing is counted then.

  `total`, `successes`, `failures` and `pending` are numbers without a bound here: each is moved by one call at
  a time, and `saturating_sub` is the subtraction of `Nat`.  Latencies are `u64` and wrap.  The percentiles are
  computed in `f64` by the source, and exactly here: over at most 50 000 samples the two agree.
-/
import Smppd.Lib.Table
import Smppd.Lib.Select
import Smppd.Store.Types

namespace Smppd.Store

open Table

/-! ## Decisions and outcomes -/

/-- Type of decision being made. -/
inductive DecisionType where
  | route
  | loadBalance
  | retry
  | fallback
  deriving DecidableEq

/-- A decision record: what the store reads of it. -/
structure Decision where
  id : DecisionId
  decisionType : DecisionType
  target : String
  timestamp : Instant
  deriving DecidableEq

/-- Outcome of a decision: what the store reads of it. -/
structure Outcome where
  decisionId : DecisionId
  success : Bool
  latency : Duration

/-- `outcome.latency.as_micros() as u64`. -/
def Outcome.latencyUs (o : Outcome) : UInt64 := UInt64.ofNat (o.latency / 1000)

/-- Aggregated statistics for a decision type. -/
structure DecisionStats where
  total : Nat := 0
  successes : Nat := 0
  failures : Nat := 0
  pending : Nat := 0
  avgLatencyUs : UInt64 := 0
  p50LatencyUs : UInt64 := 0
  p95LatencyUs : UInt64 := 0
  p99LatencyUs : UInt64 := 0

/-- Statistics for a specific target. -/
structure TargetStats where
  name : String
  total : Nat := 0
  successes : Nat := 0
  failures : Nat := 0
  avgLatencyUs : UInt64 := 0
  emaLatencyUs : UInt64 := 0
  lastUpdate : Option Instant := none

/-! ## What the store keeps -/

/-- `MAX_DECISIONS`. -/
def maxDecisions : Nat := 100000

/-- `MAX_LATENCY_SAMPLES`. -/
def maxLatencySamples : Nat := 50000

/-- `if latency_samples.len() < MAX_LATENCY_SAMPLES { latency_samples.push(latency_us) }`. -/
def pushSample (latencyUs : UInt64) (samples : List UInt64) : List UInt64 :=
  if samples.length < maxLatencySamples then samples ++ [latencyUs] else samples

/-- Internal decision type statistics. -/
structure TypeStatsInternal where
  total : Nat := 0
  successes : Nat := 0
  failures : Nat := 0
  pending : Nat := 0
  sumLatencyUs : UInt64 := 0
  latencySamples : List UInt64 := []

/-- Internal target statistics with latency samples. -/
structure TargetStatsInternal where
  total : Nat := 0
  successes : Nat := 0
  failures : Nat := 0
  sumLatencyUs : UInt64 := 0
  emaLatencyUs : UInt64 := 0
  latencySamples : List UInt64 := []
  lastUpdate : Instant

/-- What `record_decision` does to the statistics of the type. -/
def TypeStatsInternal.recordDecision (stats : TypeStatsInternal) : TypeStatsInternal :=
  { stats with total := stats.total + 1, pending := stats.pending + 1 }

/-- What `record_outcome` does to the statistics of the type. -/
def TypeStatsInternal.recordOutcome (outcome : Outcome) (stats : TypeStatsInternal) : TypeStatsInternal :=
  { stats with
    pending := stats.pending - 1
    successes := if outcome.success then stats.successes + 1 else stats.successes
    failures := if outcome.success then stats.failures else stats.failures + 1
    sumLatencyUs := stats.sumLatencyUs + outcome.latencyUs
    latencySamples := pushSample outcome.latencyUs stats.latencySamples }

/-- What `record_outcome` does to the statistics of the target. -/
def TargetStatsInternal.recordOutcome (clock : Clock) (outcome : Outcome) (stats : TargetStatsInternal) :
    TargetStatsInternal :=
  { stats with
    total := stats.total + 1
    successes := if outcome.success then stats.successes + 1 else stats.successes
    failures := if outcome.success then stats.failures else stats.failures + 1
    sumLatencyUs := stats.sumLatencyUs + outcome.latencyUs
    lastUpdate := clock.now
    -- the moving average takes a fifth of the new latency
    emaLatencyUs :=
      if stats.emaLatencyUs = 0 then outcome.latencyUs
      else (outcome.latencyUs * 2 + stats.emaLatencyUs * 8) / 10
    latencySamples := pushSample outcome.latencyUs stats.latencySamples }

/-- In-memory storage implementation: the fields its feedback operations use. -/
structure FeedbackStorage where
  decisions : Tbl DecisionId Decision
  targetStats : Tbl String TargetStatsInternal
  typeStats : Tbl DecisionType TypeStatsInternal

/-- One entry of the decision map. -/
abbrev DecisionEntry := Sigma fun _ : DecisionId => Decision

namespace FeedbackStorage

/-- `MemoryStorage::new`. -/
def new : FeedbackStorage := ⟨∅, ∅, ∅⟩

/-! ## The operations -/

/-- The ids `prune_decisions_if_needed` removes when it prunes. -/
def oldestDecisions (order : IterOrder DecisionEntry) (decisions : Tbl DecisionId Decision) : List DecisionId :=
  (Select.oldest Prod.snd (maxDecisions / 10)
    ((order.arrange decisions.entries).map fun e => (e.1, e.2.timestamp))).map Prod.fst

/-- `prune_decisions_if_needed`. -/
def pruneDecisionsIfNeeded (order : IterOrder DecisionEntry) (decisions : Tbl DecisionId Decision) :
    Tbl DecisionId Decision :=
  if decisions.entries.length < maxDecisions then decisions
  else eraseAll (oldestDecisions order decisions) decisions

/-- `record_decision`. -/
def recordDecision (order : IterOrder DecisionEntry) (clock : Clock) (decision : Decision)
    (s : FeedbackStorage) : FeedbackStorage × DecisionId :=
  ({ decisions := (pruneDecisionsIfNeeded order s.decisions).insert decision.id decision
     typeStats := modify decision.decisionType TypeStatsInternal.recordDecision
       (orInsert decision.decisionType {} s.typeStats)
     targetStats := orInsert decision.target { lastUpdate := clock.now } s.targetStats }, decision.id)

/-- `record_outcome`. -/
def recordOutcome (clock : Clock) (outcome : Outcome) (s : FeedbackStorage) : FeedbackStorage :=
  match s.decisions.lookup outcome.decisionId with
  | none => s
  | some decision =>
    { s with
      typeStats := modify decision.decisionType (TypeStatsInternal.recordOutcome outcome) s.typeStats
      targetStats := modify decision.target (TargetStatsInternal.recordOutcome clock outcome) s.targetStats }

/-- `calculate_percentile`. -/
def calculatePercentile (samples : List UInt64) (percentile : Nat) : UInt64 :=
  if samples.isEmpty then 0
  else
    let sorted := samples.mergeSort fun a b => decide (a ≤ b)
    sorted.getD (min (sorted.length * percentile / 100) (sorted.length - 1)) 0

/-- `sum_latency_us / total`. -/
def avgLatency (sumLatencyUs : UInt64) (total : Nat) : UInt64 :=
  if 0 < total then UInt64.ofNat (sumLatencyUs.toNat / total) else 0

/-- `decision_stats`. -/
def decisionStats (s : FeedbackStorage) (decisionType : DecisionType) : DecisionStats :=
  match s.typeStats.lookup decisionType with
  | some stats =>
    { total := stats.total
      successes := stats.successes
      failures := stats.failures
      pending := stats.pending
      avgLatencyUs := avgLatency stats.sumLatencyUs stats.total
      p50LatencyUs := calculatePercentile stats.latencySamples 50
      p95LatencyUs := calculatePercentile stats.latencySamples 95
      p99LatencyUs := calculatePercentile stats.latencySamples 99 }
  | none => {}

/-- `target_stats`. -/
def statsOfTarget (s : FeedbackStorage) (target : String) : TargetStats :=
  match s.targetStats.lookup target with
  | some stats =>
    { name := target
      total := stats.total
      successes := stats.successes
      failures := stats.failures
      avgLatencyUs := avgLatency stats.sumLatencyUs stats.total
      emaLatencyUs := stats.emaLatencyUs
      lastUpdate := some stats.lastUpdate }
  | none => { name := target }

/-- `prune_feedback`. -/
def pruneFeedback (clock : Clock) (maxAge : Duration) (s : FeedbackStorage) : FeedbackStorage :=
  let cutoff := clock.now - maxAge
  { s with decisions := retain (fun d => decide (cutoff ≤ d.timestamp)) s.decisions }

/-! ## What the map of decisions has -/

/-- Pruning only removes. -/
theorem lookup_of_pruneDecisionsIfNeeded {order : IterOrder DecisionEntry} {decisions : Tbl DecisionId Decision}
    {id : DecisionId} {d : Decision} (h : (pruneDecisionsIfNeeded order decisions).lookup id = some d) :
    decisions.lookup id = some d := by
  unfold pruneDecisionsIfNeeded at h
  split at h
  · exact h
  · rw [lookup_eraseAll] at h
    split at h
    · cases h
    · exact h

/-- What is in the map after a decision was recorded. -/
theorem lookup_of_recordDecision {order : IterOrder DecisionEntry} {clock : Clock} {decision d : Decision}
    {s : FeedbackStorage} {id : DecisionId}
    (h : (s.recordDecision order clock decision).1.decisions.lookup id = some d) :
    id = decision.id ∧ d = decision ∨ s.decisions.lookup id = some d := by
  rcases lookup_insert_eq_some.mp h with hnew | ⟨-, hold⟩
  · exact Or.inl hnew
  · exact Or.inr (lookup_of_pruneDecisionsIfNeeded hold)

theorem lookup_of_pruneFeedback {clock : Clock} {maxAge : Duration} {s : FeedbackStorage} {id : DecisionId}
    {d : Decision} (h : (s.pruneFeedback clock maxAge).decisions.lookup id = some d) :
    s.decisions.lookup id = some d :=
  (lookup_retain_eq_some.mp h).1

end FeedbackStorage

end Smppd.Store
