/-
  The DECISION ACCOUNTS of `MemoryStorage`: the counters of `type_stats` and `target_stats` over any sequence of
  calls.

  The counters know nothing of the map of decisions, so pruning cannot be seen in them; what they count is
  what was RECORDED and what was APPLIED, that is, which outcomes found their decision.  `Accounted` says so,
  counter by counter.  The subtraction from `pending` never saturates, because a decision that gets its
  outcome was recorded and has had none: there are more decisions of its type than applied outcomes
  (`Accounted.waiting`).
-/
import Mathlib.Data.List.Perm.Subperm
import Smppd.Lib.Machine
import Smppd.Store.Feedback

set_option linter.unusedVariables false

namespace Smppd.Store.FeedbackStorage

open Table Machine

/-! ## Sequences of calls -/

/-- A call. -/
inductive Op where
  | recordDecision (order : IterOrder DecisionEntry) (clock : Clock) (decision : Decision)
  | recordOutcome (clock : Clock) (outcome : Outcome)
  | pruneFeedback (clock : Clock) (maxAge : Duration)

/-- The store, with what was recorded so far and with the decisions whose outcome found them. -/
structure History where
  storage : FeedbackStorage
  recorded : List Decision
  outcomes : List Outcome
  applied : List Decision

namespace History

/-- Nothing was recorded. -/
def empty : History := ⟨.new, [], [], []⟩

/-- One call: no decision is recorded under an id for the second time, and no outcome for a decision that
    has one. -/
def step (h : History) : Op → Option History
  | .recordDecision order clock decision =>
    if decision.id ∈ h.recorded.map Decision.id then none
    else some { h with
      storage := (h.storage.recordDecision order clock decision).1
      recorded := decision :: h.recorded }
  | .recordOutcome clock outcome =>
    if outcome.decisionId ∈ h.outcomes.map Outcome.decisionId then none
    else some { h with
      storage := h.storage.recordOutcome clock outcome
      outcomes := outcome :: h.outcomes
      applied := (h.storage.decisions.lookup outcome.decisionId).toList ++ h.applied }
  | .pruneFeedback clock maxAge => some { h with storage := h.storage.pruneFeedback clock maxAge }

/-- How many of the decisions are of the type. -/
def ofType (t : DecisionType) (ds : List Decision) : Nat := ds.countP fun d => decide (d.decisionType = t)

/-- How many of the decisions have the target. -/
def ofTarget (target : String) (ds : List Decision) : Nat := ds.countP fun d => decide (d.target = target)

theorem ofType_cons (t : DecisionType) (d : Decision) (ds : List Decision) :
    ofType t (d :: ds) = ofType t ds + if d.decisionType = t then 1 else 0 := by
  simp only [ofType, List.countP_cons, decide_eq_true_eq]

theorem ofTarget_cons (target : String) (d : Decision) (ds : List Decision) :
    ofTarget target (d :: ds) = ofTarget target ds + if d.target = target then 1 else 0 := by
  simp only [ofTarget, List.countP_cons, decide_eq_true_eq]

/-! ## The accounts -/

/-- The counters of a type. -/
structure TypeCounts (recorded applied : List Decision) (t : DecisionType) (stats : TypeStatsInternal) : Prop where
  total : stats.total = ofType t recorded
  settled : stats.successes + stats.failures = ofType t applied
  pending : stats.pending + ofType t applied = ofType t recorded

/-- The counters of a target. -/
structure TargetCounts (applied : List Decision) (target : String) (stats : TargetStatsInternal) : Prop where
  total : stats.total = ofTarget target applied
  settled : stats.successes + stats.failures = ofTarget target applied

/-- **The invariant**: whose ids are in the map, which decisions have had their outcome, and what is counted. -/
structure Accounted (h : History) : Prop where
  distinct : (h.recorded.map Decision.id).Nodup
  known : ∀ id d, h.storage.decisions.lookup id = some d → d ∈ h.recorded ∧ d.id = id
  applied : ∀ d ∈ h.applied, d ∈ h.recorded ∧ d.id ∈ h.outcomes.map Outcome.decisionId
  once : h.applied.Nodup
  types : ∀ t, TypeCounts h.recorded h.applied t ((h.storage.typeStats.lookup t).getD {})
  entered : ∀ d ∈ h.recorded, ∃ stats, h.storage.targetStats.lookup d.target = some stats
  targets : ∀ target stats, h.storage.targetStats.lookup target = some stats →
    TargetCounts h.applied target stats

theorem accounted_empty : Accounted empty := by
  have hnone : ∀ t : DecisionType, (empty.storage.typeStats.lookup t) = none := fun _ => rfl
  refine ⟨List.nodup_nil, ?_, ?_, List.nodup_nil, ?_, ?_, ?_⟩
  · intro id d hd
    cases hd
  · intro d hd
    cases hd
  · intro t
    rw [hnone t]
    exact ⟨rfl, rfl, rfl⟩
  · intro d hd
    cases hd
  · intro target stats hstats
    cases hstats

/-! ## What one call counts -/

/-- The statistics of a type after a decision was recorded. -/
theorem typeStats_recordDecision (order : IterOrder DecisionEntry) (clock : Clock) (decision : Decision)
    (s : FeedbackStorage) (t : DecisionType) :
    ((s.recordDecision order clock decision).1.typeStats.lookup t).getD {} =
      if decision.decisionType = t then ((s.typeStats.lookup t).getD {}).recordDecision
      else (s.typeStats.lookup t).getD {} := by
  show ((modify decision.decisionType TypeStatsInternal.recordDecision
    (orInsert decision.decisionType {} s.typeStats)).lookup t).getD {} = _
  by_cases ht : decision.decisionType = t
  · subst ht
    rw [if_pos rfl, lookup_modify_self, lookup_orInsert_self]
    rfl
  · have hne : t ≠ decision.decisionType := fun heq => ht heq.symm
    rw [if_neg ht, lookup_modify_ne _ _ hne, lookup_orInsert_ne _ _ hne]

section Counters

variable {recorded applied : List Decision} {t : DecisionType} {target : String} {d : Decision}

theorem TypeCounts.recordDecision {stats : TypeStatsInternal} (h : TypeCounts recorded applied t stats)
    (ht : d.decisionType = t) : TypeCounts (d :: recorded) applied t stats.recordDecision := by
  obtain ⟨htotal, hsettled, hpending⟩ := h
  have hcons := ofType_cons t d recorded
  rw [if_pos ht] at hcons
  refine ⟨?_, hsettled, ?_⟩
  · show stats.total + 1 = ofType t (d :: recorded)
    omega
  · show stats.pending + 1 + ofType t applied = ofType t (d :: recorded)
    omega

theorem TypeCounts.recorded_ne {stats : TypeStatsInternal} (h : TypeCounts recorded applied t stats)
    (ht : d.decisionType ≠ t) : TypeCounts (d :: recorded) applied t stats := by
  obtain ⟨htotal, hsettled, hpending⟩ := h
  have hcons := ofType_cons t d recorded
  rw [if_neg ht] at hcons
  refine ⟨?_, hsettled, ?_⟩
  · show stats.total = ofType t (d :: recorded)
    omega
  · show stats.pending + ofType t applied = ofType t (d :: recorded)
    omega

/-- The subtraction does not saturate while a decision waits for its outcome. -/
theorem TypeCounts.recordOutcome {stats : TypeStatsInternal} (h : TypeCounts recorded applied t stats)
    (ht : d.decisionType = t) (hwaiting : ofType t applied + 1 ≤ ofType t recorded) (outcome : Outcome) :
    TypeCounts recorded (d :: applied) t (stats.recordOutcome outcome) := by
  obtain ⟨htotal, hsettled, hpending⟩ := h
  have hcons := ofType_cons t d applied
  rw [if_pos ht] at hcons
  refine ⟨htotal, ?_, ?_⟩
  · show (if outcome.success then stats.successes + 1 else stats.successes) +
      (if outcome.success then stats.failures else stats.failures + 1) = ofType t (d :: applied)
    split <;> omega
  · show stats.pending - 1 + ofType t (d :: applied) = ofType t recorded
    omega

theorem TypeCounts.applied_ne {stats : TypeStatsInternal} (h : TypeCounts recorded applied t stats)
    (ht : d.decisionType ≠ t) : TypeCounts recorded (d :: applied) t stats := by
  obtain ⟨htotal, hsettled, hpending⟩ := h
  have hcons := ofType_cons t d applied
  rw [if_neg ht] at hcons
  refine ⟨htotal, ?_, ?_⟩
  · show stats.successes + stats.failures = ofType t (d :: applied)
    omega
  · show stats.pending + ofType t (d :: applied) = ofType t recorded
    omega

theorem TargetCounts.recordOutcome {stats : TargetStatsInternal} (h : TargetCounts applied target stats)
    (htarget : d.target = target) (clock : Clock) (outcome : Outcome) :
    TargetCounts (d :: applied) target (stats.recordOutcome clock outcome) := by
  obtain ⟨htotal, hsettled⟩ := h
  have hcons := ofTarget_cons target d applied
  rw [if_pos htarget] at hcons
  constructor
  · show stats.total + 1 = ofTarget target (d :: applied)
    omega
  · show (if outcome.success then stats.successes + 1 else stats.successes) +
      (if outcome.success then stats.failures else stats.failures + 1) = ofTarget target (d :: applied)
    split <;> omega

theorem TargetCounts.applied_ne {stats : TargetStatsInternal} (h : TargetCounts applied target stats)
    (htarget : d.target ≠ target) : TargetCounts (d :: applied) target stats := by
  obtain ⟨htotal, hsettled⟩ := h
  have hcons := ofTarget_cons target d applied
  rw [if_neg htarget] at hcons
  constructor
  · show stats.total = ofTarget target (d :: applied)
    omega
  · show stats.successes + stats.failures = ofTarget target (d :: applied)
    omega

end Counters

/-- What is recorded is counted. -/
theorem Accounted.recordDecision {h : History} (hacc : Accounted h) {decision : Decision}
    (hnew : decision.id ∉ h.recorded.map Decision.id) (order : IterOrder DecisionEntry) (clock : Clock) :
    Accounted { h with
      storage := (h.storage.recordDecision order clock decision).1
      recorded := decision :: h.recorded } := by
  have htargets : (h.storage.recordDecision order clock decision).1.targetStats =
      orInsert decision.target { lastUpdate := clock.now } h.storage.targetStats := rfl
  refine ⟨?_, ?_, ?_, hacc.once, ?_, ?_, ?_⟩
  · exact List.nodup_cons.mpr ⟨hnew, hacc.distinct⟩
  · intro id d hd
    rcases lookup_of_recordDecision hd with ⟨rfl, rfl⟩ | hold
    · exact ⟨List.mem_cons_self, rfl⟩
    · obtain ⟨hmem, hid⟩ := hacc.known id d hold
      exact ⟨List.mem_cons_of_mem _ hmem, hid⟩
  · intro d hd
    obtain ⟨hmem, hid⟩ := hacc.applied d hd
    exact ⟨List.mem_cons_of_mem _ hmem, hid⟩
  · intro t
    show TypeCounts _ _ t
      (((h.storage.recordDecision order clock decision).1.typeStats.lookup t).getD {})
    rw [typeStats_recordDecision]
    split
    · next ht => exact (hacc.types t).recordDecision ht
    · next ht => exact (hacc.types t).recorded_ne ht
  · intro d hd
    show ∃ stats, (orInsert decision.target _ h.storage.targetStats).lookup d.target = some stats
    by_cases htarget : d.target = decision.target
    · rw [htarget, lookup_orInsert_self]
      exact ⟨_, rfl⟩
    · rw [lookup_orInsert_ne _ _ htarget]
      rcases List.mem_cons.mp hd with rfl | hold
      · exact absurd rfl htarget
      · exact hacc.entered d hold
  · intro target stats hstats
    change (orInsert decision.target _ h.storage.targetStats).lookup target = some stats at hstats
    show TargetCounts h.applied target stats
    by_cases htarget : target = decision.target
    · subst htarget
      rw [lookup_orInsert_self] at hstats
      cases hlookup : h.storage.targetStats.lookup decision.target with
      | some old =>
        rw [hlookup] at hstats
        obtain rfl : old = stats := Option.some.inj hstats
        exact hacc.targets _ _ hlookup
      | none =>
        -- a target without an entry has no applied outcome
        rw [hlookup] at hstats
        obtain rfl := Option.some.inj hstats
        have hzero : ofTarget decision.target h.applied = 0 := by
          refine List.countP_eq_zero.mpr fun d hd htarget => ?_
          obtain ⟨old, hold⟩ := hacc.entered d (hacc.applied d hd).1
          rw [of_decide_eq_true htarget, hlookup] at hold
          cases hold
        exact ⟨hzero.symm, hzero.symm⟩
    · rw [lookup_orInsert_ne _ _ htarget] at hstats
      exact hacc.targets _ _ hstats

/-- A decision that gets its outcome is one more than the applied ones of its type. -/
theorem Accounted.waiting {h : History} (hacc : Accounted h) {d : Decision} (hmem : d ∈ h.recorded)
    (hnew : d ∉ h.applied) : ofType d.decisionType h.applied + 1 ≤ ofType d.decisionType h.recorded := by
  have hsubset : d :: h.applied ⊆ h.recorded := by
    refine List.cons_subset.mpr ⟨hmem, fun d' hd' => ?_⟩
    exact (hacc.applied d' hd').1
  have hnodup : (d :: h.applied).Nodup := List.nodup_cons.mpr ⟨hnew, hacc.once⟩
  have hcount := (List.subperm_of_subset hnodup hsubset).countP_le
    (p := fun d' => decide (d'.decisionType = d.decisionType))
  have hcons := ofType_cons d.decisionType d h.applied
  rw [if_pos rfl] at hcons
  rw [← hcons]
  exact hcount

/-- An outcome that finds its decision is counted, for its type and for its target. -/
theorem Accounted.recordOutcome {h : History} (hacc : Accounted h) {outcome : Outcome} {d : Decision}
    (hfound : h.storage.decisions.lookup outcome.decisionId = some d)
    (hnew : outcome.decisionId ∉ h.outcomes.map Outcome.decisionId) (clock : Clock) :
    Accounted { h with
      storage := { h.storage with
        typeStats := modify d.decisionType (TypeStatsInternal.recordOutcome outcome) h.storage.typeStats
        targetStats := modify d.target (TargetStatsInternal.recordOutcome clock outcome) h.storage.targetStats }
      outcomes := outcome :: h.outcomes
      applied := d :: h.applied } := by
  obtain ⟨hmem, hid⟩ := hacc.known _ _ hfound
  have hnotApplied : d ∉ h.applied := by
    intro hin
    apply hnew
    rw [← hid]
    exact (hacc.applied d hin).2
  have hwaiting := hacc.waiting hmem hnotApplied
  refine ⟨hacc.distinct, hacc.known, ?_, ?_, ?_, ?_, ?_⟩
  · intro d' hd'
    rcases List.mem_cons.mp hd' with rfl | hold
    · refine ⟨hmem, ?_⟩
      rw [hid]
      exact List.mem_cons_self
    · obtain ⟨hin, hout⟩ := hacc.applied d' hold
      exact ⟨hin, List.mem_cons_of_mem _ hout⟩
  · exact List.nodup_cons.mpr ⟨hnotApplied, hacc.once⟩
  · intro t
    have htypes := hacc.types t
    show TypeCounts _ _ t
      (((modify d.decisionType (TypeStatsInternal.recordOutcome outcome) h.storage.typeStats).lookup t).getD {})
    by_cases ht : d.decisionType = t
    · subst ht
      rw [lookup_modify_self]
      cases hlookup : h.storage.typeStats.lookup d.decisionType with
      | none =>
        -- the type of a recorded decision has an entry
        rw [hlookup] at htypes
        have hzero : 0 = ofType d.decisionType h.recorded := htypes.total
        omega
      | some stats =>
        rw [hlookup] at htypes
        exact TypeCounts.recordOutcome htypes rfl hwaiting outcome
    · rw [lookup_modify_ne _ _ (fun heq => ht heq.symm)]
      exact htypes.applied_ne ht
  · intro d' hd'
    obtain ⟨stats, hstats⟩ := hacc.entered d' hd'
    show ∃ stats, (modify d.target _ h.storage.targetStats).lookup d'.target = some stats
    by_cases htarget : d'.target = d.target
    · rw [htarget] at hstats ⊢
      rw [lookup_modify_self, hstats]
      exact ⟨_, rfl⟩
    · rw [lookup_modify_ne _ _ htarget]
      exact ⟨stats, hstats⟩
  · intro target stats hstats
    change (modify d.target _ h.storage.targetStats).lookup target = some stats at hstats
    by_cases htarget : target = d.target
    · subst htarget
      rw [lookup_modify_self] at hstats
      obtain ⟨old, hold, rfl⟩ := Option.map_eq_some_iff.mp hstats
      exact (hacc.targets _ _ hold).recordOutcome rfl clock outcome
    · rw [lookup_modify_ne _ _ htarget] at hstats
      exact (hacc.targets _ _ hstats).applied_ne fun heq => htarget heq.symm

/-- **The step lemma.** -/
theorem Accounted.step {h h' : History} {op : Op} (hacc : Accounted h) (hstep : h.step op = some h') :
    Accounted h' := by
  cases op with
  | recordDecision order clock decision =>
    simp only [History.step] at hstep
    split at hstep
    · cases hstep
    · next hnew =>
      obtain rfl := Option.some.inj hstep
      exact hacc.recordDecision hnew order clock
  | recordOutcome clock outcome =>
    simp only [History.step] at hstep
    split at hstep
    · cases hstep
    · next hnew =>
      obtain rfl := Option.some.inj hstep
      unfold FeedbackStorage.recordOutcome
      cases hfound : h.storage.decisions.lookup outcome.decisionId with
      | some d => exact hacc.recordOutcome hfound hnew clock
      | none =>
        -- a dropped outcome is only remembered here
        refine ⟨hacc.distinct, hacc.known, fun d hd => ?_, hacc.once, hacc.types, hacc.entered, hacc.targets⟩
        obtain ⟨hmem, hid⟩ := hacc.applied d hd
        exact ⟨hmem, List.mem_cons_of_mem _ hid⟩
  | pruneFeedback clock maxAge =>
    obtain rfl := Option.some.inj hstep
    refine ⟨hacc.distinct, fun id d hd => ?_, hacc.applied, hacc.once, hacc.types, hacc.entered, hacc.targets⟩
    exact hacc.known id d (lookup_of_pruneFeedback hd)

theorem run_accounted {ops : List Op} {h : History} (hrun : run step empty ops = some h) : Accounted h := by
  have hstep : ∀ h op h', Accounted h → History.step h op = some h' → Accounted h' :=
    fun _ _ _ hacc hstep => hacc.step hstep
  exact run_inv hstep accounted_empty hrun

/-! ## What the statistics say -/

theorem decisionStats_counts (s : FeedbackStorage) (t : DecisionType) :
    (s.decisionStats t).total = ((s.typeStats.lookup t).getD {}).total ∧
      (s.decisionStats t).successes = ((s.typeStats.lookup t).getD {}).successes ∧
      (s.decisionStats t).failures = ((s.typeStats.lookup t).getD {}).failures ∧
      (s.decisionStats t).pending = ((s.typeStats.lookup t).getD {}).pending := by
  unfold decisionStats
  cases s.typeStats.lookup t <;> exact ⟨rfl, rfl, rfl, rfl⟩

/-- Every applied outcome was recorded. -/
theorem Accounted.applied_le {h : History} (hacc : Accounted h) : h.applied.length ≤ h.outcomes.length := by
  have hinj : (h.applied.map Decision.id).Nodup := by
    refine List.Nodup.map_on ?_ hacc.once
    intro d hd d' hd' heq
    exact List.inj_on_of_nodup_map hacc.distinct (hacc.applied d hd).1 (hacc.applied d' hd').1 heq
  have hsubset : h.applied.map Decision.id ⊆ h.outcomes.map Outcome.decisionId := by
    intro id hid
    obtain ⟨d, hd, rfl⟩ := List.mem_map.mp hid
    exact (hacc.applied d hd).2
  have hlength := (List.subperm_of_subset hinj hsubset).length_le
  rwa [List.length_map, List.length_map] at hlength

/-- **Decision accounting.**  After any sequence of calls, the statistics of every type and of every target add
    up, and count what was recorded. -/
theorem decisions_accounted {ops : List Op} {h : History} (hrun : run step empty ops = some h)
    (t : DecisionType) (target : String) :
    (h.storage.decisionStats t).total =
        (h.storage.decisionStats t).successes + (h.storage.decisionStats t).failures +
          (h.storage.decisionStats t).pending ∧
      (h.storage.decisionStats t).total = ofType t h.recorded ∧
      (h.storage.statsOfTarget target).total =
        (h.storage.statsOfTarget target).successes + (h.storage.statsOfTarget target).failures ∧
      (h.storage.statsOfTarget target).total ≤ h.outcomes.length := by
  have hacc := run_accounted hrun
  obtain ⟨htotal, hsuccesses, hfailures, hpending⟩ := decisionStats_counts h.storage t
  have htypes := hacc.types t
  refine ⟨?_, ?_, ?_⟩
  · rw [htotal, hsuccesses, hfailures, hpending, htypes.settled, htypes.total, ← htypes.pending, Nat.add_comm]
  · rw [htotal, htypes.total]
  · unfold statsOfTarget
    cases hlookup : h.storage.targetStats.lookup target with
    | none => exact ⟨rfl, Nat.zero_le _⟩
    | some stats =>
      obtain ⟨hcount, hsettled⟩ := hacc.targets _ _ hlookup
      have hle : ofTarget target h.applied ≤ h.applied.length := List.countP_le_length
      have happlied := hacc.applied_le
      refine ⟨?_, ?_⟩
      · show stats.total = stats.successes + stats.failures
        rw [hcount, hsettled]
      · show stats.total ≤ h.outcomes.length
        omega

/-- Two decisions for one target; one fails, the other is pruned before its outcome comes. -/
theorem decisions_accounted_after_pruning :
    let first : Decision := ⟨⟨0⟩, .route, "primary", 10⟩
    let second : Decision := ⟨⟨1⟩, .route, "primary", 20⟩
    let ops : List Op := [.recordDecision .listed ⟨10, 10⟩ first, .recordDecision .listed ⟨20, 20⟩ second,
      .recordOutcome ⟨30, 30⟩ ⟨⟨1⟩, false, 5000⟩, .pruneFeedback ⟨40, 40⟩ 25, .recordOutcome ⟨50, 50⟩ ⟨⟨0⟩, true, 9000⟩]
    ∃ h, run step empty ops = some h ∧ (h.storage.decisionStats .route).total = 2 ∧
      (h.storage.decisionStats .route).pending = 1 ∧ (h.storage.statsOfTarget "primary").total = 1 ∧
      (h.storage.decisionStats .route).total =
        (h.storage.decisionStats .route).successes + (h.storage.decisionStats .route).failures +
          (h.storage.decisionStats .route).pending ∧
      (h.storage.statsOfTarget "primary").total ≤ h.outcomes.length := by
  intro first second ops
  obtain ⟨h, hrun⟩ : ∃ h, run step empty ops = some h := Option.isSome_iff_exists.mp (by decide +kernel)
  have hstats : (run step empty ops).map (fun h => ((h.storage.decisionStats .route).total,
      (h.storage.decisionStats .route).pending, (h.storage.statsOfTarget "primary").total)) = some (2, 1, 1) := by
    decide +kernel
  rw [hrun] at hstats
  simp only [Option.map_some, Option.some.injEq, Prod.mk.injEq] at hstats
  obtain ⟨htotal, hpending, htarget⟩ := hstats
  obtain ⟨hsum, -, -, hbound⟩ := decisions_accounted hrun .route "primary"
  exact ⟨h, hrun, htotal, hpending, htarget, hsum, hbound⟩

end History

end Smppd.Store.FeedbackStorage
