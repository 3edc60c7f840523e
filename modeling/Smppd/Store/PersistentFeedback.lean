/-
  The FEEDBACK part of `PersistentStorage` (`src/store/persistent.rs`): decisions, outcomes and the statistics of
  targets in three partitions.

  As in memory an outcome is counted if its decision is found, and then for the TARGET of the decision alone:
  there are no statistics of decision types (`decision_stats` is empty).  Unlike in memory the average latency is
  not a sum divided when it is asked for, but a mean that is brought up to date with every outcome.  The outcome
  itself is put in whether or not its decision is known, and nothing reads it but the pruning.

  The counters are numbers without a bound, as in `Smppd.Store.Feedback`; latencies are `u64` and wrap.
-/
import Smppd.Lib.Transducer
import Smppd.Store.Feedback
import Smppd.Store.Persistent

set_option linter.unusedVariables false

namespace Smppd.Store

open Table

/-! ## What is persisted -/

/-- A decision: what the store reads of it. -/
structure PersistedDecision where
  id : UInt64
  target : String
  timestampEpochMs : UInt64

/-- An outcome: what the store reads of it. -/
structure PersistedOutcome where
  decisionId : UInt64
  success : Bool
  latencyUs : UInt64
  timestampEpochMs : UInt64

/-- The statistics of a target. -/
structure PersistedTargetStats where
  name : String
  total : Nat
  successes : Nat
  failures : Nat
  avgLatencyUs : UInt64
  emaLatencyUs : UInt64
  lastUpdateEpochMs : UInt64

/-- `format!("dec_{}", id)`. -/
def decisionKey (id : DecisionId) : Key := ['d', 'e', 'c', '_'] ++ digits id.val.toNat

/-- `format!("out_{}", id)`. -/
def outcomeKey (id : DecisionId) : Key := ['o', 'u', 't', '_'] ++ digits id.val.toNat

/-- `format!("target_{}", name)`. -/
def targetKey (name : String) : Key := ['t', 'a', 'r', 'g', 'e', 't', '_'] ++ name.toList

theorem targetKey_injective {name name' : String} (h : targetKey name = targetKey name') : name = name' :=
  String.toList_inj.mp (List.append_cancel_left h)

/-- `outcome.latency.as_micros()`, before it is cast. -/
def Outcome.micros (outcome : Outcome) : Nat := outcome.latency / 1000

theorem Outcome.toNat_latencyUs {outcome : Outcome} (h : outcome.micros < 2 ^ 64) :
    outcome.latencyUs.toNat = outcome.micros := UInt64.toNat_ofNat_of_lt' h

/-- What `record_outcome` does to the statistics of the target. -/
def TargetStats.recordOutcome (outcome : Outcome) (stats : TargetStats) : TargetStats :=
  let total := stats.total + 1
  { stats with
    total
    successes := if outcome.success then stats.successes + 1 else stats.successes
    failures := if outcome.success then stats.failures else stats.failures + 1
    emaLatencyUs :=
      if stats.emaLatencyUs = 0 then outcome.latencyUs
      else (outcome.latencyUs * 2 + stats.emaLatencyUs * 8) / 10
    avgLatencyUs := (stats.avgLatencyUs * UInt64.ofNat (total - 1) + outcome.latencyUs) / UInt64.ofNat total }

/-- The record of a decision. -/
def Decision.persisted (clock : Clock) (decision : Decision) : PersistedDecision where
  id := decision.id.val
  target := decision.target
  timestampEpochMs := epochMs clock.wall

/-- The record of an outcome. -/
def Outcome.persisted (clock : Clock) (outcome : Outcome) : PersistedOutcome where
  decisionId := outcome.decisionId.val
  success := outcome.success
  latencyUs := outcome.latencyUs
  timestampEpochMs := epochMs clock.wall

/-- The record of the statistics. -/
def TargetStats.persisted (clock : Clock) (stats : TargetStats) : PersistedTargetStats where
  name := stats.name
  total := stats.total
  successes := stats.successes
  failures := stats.failures
  avgLatencyUs := stats.avgLatencyUs
  emaLatencyUs := stats.emaLatencyUs
  lastUpdateEpochMs := epochMs clock.wall

/-- The statistics of a record. -/
def PersistedTargetStats.restored (persisted : PersistedTargetStats) : TargetStats where
  name := persisted.name
  total := persisted.total
  successes := persisted.successes
  failures := persisted.failures
  avgLatencyUs := persisted.avgLatencyUs
  emaLatencyUs := persisted.emaLatencyUs
  lastUpdate := none

/-- Persistent storage: the partitions its feedback operations use. -/
structure PersistentFeedback where
  decisions : Partition PersistedDecision
  outcomes : Partition PersistedOutcome
  targetStats : Partition PersistedTargetStats

namespace PersistentFeedback

/-- Nothing is persisted yet. -/
def new : PersistentFeedback := ⟨∅, ∅, ∅⟩

/-! ## The operations -/

/-- `persist_target_stats`. -/
def persistTargetStats (clock : Clock) (stats : TargetStats) (s : PersistentFeedback) : PersistentFeedback :=
  { s with targetStats := s.targetStats.insert (targetKey stats.name) (stats.persisted clock) }

/-- `load_target_stats`. -/
def loadTargetStats (name : String) (s : PersistentFeedback) : TargetStats :=
  match s.targetStats.lookup (targetKey name) with
  | some persisted => persisted.restored
  | none => { name }

/-- `record_decision`. -/
def recordDecision (clock : Clock) (decision : Decision) (s : PersistentFeedback) : PersistentFeedback × DecisionId :=
  ({ s with decisions := s.decisions.insert (decisionKey decision.id) (decision.persisted clock) }, decision.id)

/-- The decision of an outcome, if it is known. -/
def decisionOf (outcome : Outcome) (s : PersistentFeedback) : Option PersistedDecision :=
  s.decisions.lookup (decisionKey outcome.decisionId)

/-- `record_outcome`. -/
def recordOutcome (clock : Clock) (outcome : Outcome) (s : PersistentFeedback) : PersistentFeedback :=
  let s := { s with outcomes := s.outcomes.insert (outcomeKey outcome.decisionId) (outcome.persisted clock) }
  match s.decisionOf outcome with
  | some decision => s.persistTargetStats clock ((s.loadTargetStats decision.target).recordOutcome outcome)
  | none => s

/-- `decision_stats`. -/
def decisionStats (_ : DecisionType) (_ : PersistentFeedback) : DecisionStats := {}

/-- `target_stats`. -/
def statsOfTarget (s : PersistentFeedback) (target : String) : TargetStats := s.loadTargetStats target

/-- Whether `prune_feedback` keeps a record of the time. -/
def recent (clock : Clock) (maxAge : Duration) (timestampEpochMs : UInt64) : Bool :=
  decide ((epochMs clock.wall).toNat - timestampEpochMs.toNat ≤ (UInt64.ofNat (asMillis maxAge)).toNat)

/-- `prune_feedback`. -/
def pruneFeedback (clock : Clock) (maxAge : Duration) (s : PersistentFeedback) : PersistentFeedback :=
  { s with
    decisions := retain (fun d => recent clock maxAge d.timestampEpochMs) s.decisions
    outcomes := retain (fun o => recent clock maxAge o.timestampEpochMs) s.outcomes }

/-! ## Sequences of calls -/

/-- A call. -/
inductive Op where
  | recordDecision (clock : Clock) (decision : Decision)
  | recordOutcome (clock : Clock) (outcome : Outcome)
  | pruneFeedback (clock : Clock) (maxAge : Duration)

/-- What a call does. -/
def perform (s : PersistentFeedback) : Op → PersistentFeedback
  | .recordDecision clock decision => (s.recordDecision clock decision).1
  | .recordOutcome clock outcome => s.recordOutcome clock outcome
  | .pruneFeedback clock maxAge => s.pruneFeedback clock maxAge

/-- **The latency that a call records for a target**, in microseconds: that of an outcome whose decision is known
    and has the target. -/
def recordedBy (s : PersistentFeedback) (target : String) : Op → List Nat
  | .recordOutcome _ outcome =>
    match s.decisionOf outcome with
    | some decision => if decision.target = target then [outcome.micros] else []
    | none => []
  | _ => []

/-- The store after some calls. -/
def after (ops : List Op) : PersistentFeedback := ops.foldl perform new

/-- The latencies that some calls record for a target, one after the other. -/
def latencies (target : String) : PersistentFeedback → List Op → List Nat
  | _, [] => []
  | s, op :: ops => s.recordedBy target op ++ latencies target (s.perform op) ops

/-! ## What a call changes -/

theorem loadTargetStats_persistTargetStats (clock : Clock) {stats : TargetStats} {name : String}
    (h : stats.name = name) (s : PersistentFeedback) :
    (s.persistTargetStats clock stats).loadTargetStats name = { stats with lastUpdate := none } := by
  subst h
  rw [loadTargetStats, persistTargetStats, AList.lookup_insert]
  rfl

theorem loadTargetStats_persistTargetStats_ne (clock : Clock) {stats : TargetStats} {name : String}
    (h : name ≠ stats.name) (s : PersistentFeedback) :
    (s.persistTargetStats clock stats).loadTargetStats name = s.loadTargetStats name := by
  rw [loadTargetStats, persistTargetStats, AList.lookup_insert_ne fun hkey => h (targetKey_injective hkey)]
  rfl

/-- The statistics under each name bear the name. -/
def Named (s : PersistentFeedback) : Prop := ∀ name, (s.loadTargetStats name).name = name

/-- What is read of the statistics after an outcome; the outcome itself is put in where nobody looks. -/
theorem statsOfTarget_recordOutcome (clock : Clock) (outcome : Outcome) (s : PersistentFeedback) (target : String) :
    (s.recordOutcome clock outcome).statsOfTarget target =
      match s.decisionOf outcome with
      | some decision =>
        (s.persistTargetStats clock ((s.loadTargetStats decision.target).recordOutcome outcome)).statsOfTarget target
      | none => s.statsOfTarget target := by
  have hdecision : ({ s with outcomes := s.outcomes.insert (outcomeKey outcome.decisionId) (outcome.persisted clock) } :
      PersistentFeedback).decisionOf outcome = s.decisionOf outcome := rfl
  rw [recordOutcome, hdecision]
  cases s.decisionOf outcome <;> rfl

/-- **What a call does to the statistics of a target**: it counts the latency that it records for it, if any. -/
theorem statsOfTarget_perform {s : PersistentFeedback} (hnamed : s.Named) (op : Op) (target : String) :
    ((s.perform op).statsOfTarget target = s.statsOfTarget target ∧ s.recordedBy target op = []) ∨
      ∃ outcome, (s.perform op).statsOfTarget target =
          { (s.statsOfTarget target).recordOutcome outcome with lastUpdate := none } ∧
        s.recordedBy target op = [outcome.micros] := by
  cases op with
  | recordDecision clock decision => exact Or.inl ⟨rfl, rfl⟩
  | pruneFeedback clock maxAge => exact Or.inl ⟨rfl, rfl⟩
  | recordOutcome clock outcome =>
    rw [perform, statsOfTarget_recordOutcome, recordedBy]
    cases s.decisionOf outcome with
    | none => exact Or.inl ⟨rfl, rfl⟩
    | some decision =>
      have hname : ((s.loadTargetStats decision.target).recordOutcome outcome).name = decision.target :=
        hnamed decision.target
      dsimp only
      by_cases htarget : decision.target = target
      · refine Or.inr ⟨outcome, ?_, if_pos htarget⟩
        rw [htarget] at hname ⊢
        exact loadTargetStats_persistTargetStats clock hname s
      · refine Or.inl ⟨?_, if_neg htarget⟩
        exact loadTargetStats_persistTargetStats_ne clock (fun heq => htarget (heq.trans hname).symm) _

theorem named_perform {s : PersistentFeedback} (hnamed : s.Named) (op : Op) : (s.perform op).Named := by
  intro name
  show ((s.perform op).statsOfTarget name).name = name
  rcases statsOfTarget_perform hnamed op name with ⟨hsame, -⟩ | ⟨outcome, hcounted, -⟩
  · rw [hsame]
    exact hnamed name
  · rw [hcounted]
    exact hnamed name

theorem latencies_append (target : String) (s : PersistentFeedback) (ops : List Op) (op : Op) :
    latencies target s (ops ++ [op]) = latencies target s ops ++ (ops.foldl perform s).recordedBy target op :=
  Transducer.gathered_append perform (fun s => s.recordedBy target) (latencies target) (fun _ => rfl) (fun _ _ _ => rfl) s ops op

theorem after_append (ops : List Op) (op : Op) : after (ops ++ [op]) = (after ops).perform op :=
  List.foldl_concat _ _ _ _

/-- **The run rule**: what holds of the statistics of a target without outcomes, and is kept when one is counted,
    holds after any calls for the latencies that they record. -/
theorem statsOfTarget_after (target : String) {P : List Nat → TargetStats → Prop} (hnew : P [] { name := target })
    (hcount : ∀ xs stats outcome, P xs stats →
      P (xs ++ [outcome.micros]) { stats.recordOutcome outcome with lastUpdate := none })
    (ops : List Op) : P (latencies target new ops) ((after ops).statsOfTarget target) := by
  have hrun : (after ops).Named ∧ P (latencies target new ops) ((after ops).statsOfTarget target) := by
    induction ops using List.reverseRecOn with
    | nil => exact ⟨fun name => rfl, hnew⟩
    | append_singleton ops op ih =>
      obtain ⟨hnamed, hkept⟩ := ih
      rw [after_append, latencies_append, ← after]
      refine ⟨named_perform hnamed op, ?_⟩
      rcases statsOfTarget_perform hnamed op target with ⟨hsame, hnone⟩ | ⟨outcome, hcounted, hone⟩
      · rw [hsame, hnone, List.append_nil]
        exact hkept
      · rw [hcounted, hone]
        exact hcount _ _ outcome hkept
  exact hrun.2

end PersistentFeedback

end Smppd.Store
