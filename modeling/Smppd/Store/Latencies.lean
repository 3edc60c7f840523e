/-
  LATENCIES: what the averages that the gateway keeps say of the latencies that were recorded.

  Three averages are kept, and each in its own way (`src/filter/esme.rs`, `src/store/persistent.rs`,
  `src/store/memory.rs`):

  * `EsmeManager::record_message` and `PersistentStorage::record_outcome` keep a RUNNING MEAN, by an integer
    division at each call.  What the divisions drop adds up, and nothing bounds it;
  * `MemoryStorage::decision_stats` divides the sum of the latencies by `total`, which counts the decisions, and
    not the outcomes;
  * the moving average of both stores weighs the new latency with a fifth, and stays among the latencies
    (`ema_in_range`).

  `averages_iff` says when the first three are what they are called: the running means when less was dropped than
  there are latencies, and the average of a decision type when dividing by the decisions makes no difference.
-/
import Smppd.Lib.Means
import Smppd.Filter.EsmeQuota
import Smppd.Store.Decisions
import Smppd.Store.PersistentFeedback

set_option linter.unusedVariables false

namespace Smppd.Store

open Table Means

/-! ## Sums and divisions in `u64` -/

/-- The moving average of a target after one more latency. -/
def smoothUs (average latency : UInt64) : UInt64 :=
  if average = 0 then latency else (latency * 2 + average * 8) / 10

/-- **Neither the products nor their sum wrap** below `2 ^ 60`. -/
theorem toNat_smoothUs {average latency : UInt64} (ha : average.toNat < 2 ^ 60) (hl : latency.toNat < 2 ^ 60) :
    (smoothUs average latency).toNat = smooth 2 8 average.toNat latency.toNat := by
  have hzero : average = 0 ↔ average.toNat = 0 := by
    rw [← UInt64.toNat_inj]
    rfl
  rw [smoothUs, smooth]
  by_cases h : average = 0
  · rw [if_pos h, if_pos (hzero.mp h)]
  · rw [if_neg h, if_neg (mt hzero.mpr h)]
    have htwo : (2 : UInt64).toNat = 2 := rfl
    have height : (8 : UInt64).toNat = 8 := rfl
    have hten : (10 : UInt64).toNat = 10 := rfl
    rw [UInt64.toNat_div, UInt64.toNat_add, UInt64.toNat_mul, UInt64.toNat_mul, htwo, height, hten]
    have hlatency : latency.toNat * 2 % 2 ^ 64 = latency.toNat * 2 := Nat.mod_eq_of_lt (by omega)
    have haverage : average.toNat * 8 % 2 ^ 64 = average.toNat * 8 := Nat.mod_eq_of_lt (by omega)
    rw [hlatency, haverage, Nat.mod_eq_of_lt (by omega)]

theorem toNat_smoothUs_latencyUs {average : UInt64} {outcome : Outcome} (ha : average.toNat < 2 ^ 60)
    (h : outcome.micros < 2 ^ 60) :
    (smoothUs average outcome.latencyUs).toNat = smooth 2 8 average.toNat outcome.micros := by
  have hus : outcome.latencyUs.toNat = outcome.micros := Outcome.toNat_latencyUs (by omega)
  rw [toNat_smoothUs ha (by omega), hus]

/-- A running mean after one more value, the `total`-th. -/
def meanUs (mean : UInt64) (total : Nat) (x : UInt64) : UInt64 :=
  (mean * UInt64.ofNat (total - 1) + x) / UInt64.ofNat total

/-- **The running mean does not wrap** as long as the sum of the values fits. -/
theorem toNat_meanUs {mean x : UInt64} {xs : List Nat} (hmean : mean.toNat = runningMean xs)
    (hcount : xs.length + 1 < 2 ^ 64) (hsum : (xs ++ [x.toNat]).sum < 2 ^ 64) :
    (meanUs mean (xs.length + 1) x).toNat = runningMean (xs ++ [x.toNat]) := by
  have haccounts := runningMean_mul_add_dropped xs
  rw [List.sum_append, List.sum_singleton] at hsum
  rw [meanUs, runningMean_append, UInt64.toNat_div, UInt64.toNat_add, UInt64.toNat_mul, hmean, Nat.add_sub_cancel,
    UInt64.toNat_ofNat_of_lt' (Nat.lt_of_succ_lt hcount), UInt64.toNat_ofNat_of_lt' hcount]
  have hproduct : runningMean xs * xs.length % 2 ^ 64 = runningMean xs * xs.length := Nat.mod_eq_of_lt (by omega)
  rw [hproduct, Nat.mod_eq_of_lt (by omega)]

/-! ## In memory -/

namespace FeedbackStorage

/-- What a call does. -/
def perform (s : FeedbackStorage) : Op → FeedbackStorage
  | .recordDecision order clock decision => (s.recordDecision order clock decision).1
  | .recordOutcome clock outcome => s.recordOutcome clock outcome
  | .pruneFeedback clock maxAge => s.pruneFeedback clock maxAge

/-- The store after some calls. -/
def after (ops : List Op) : FeedbackStorage := ops.foldl perform new

/-- **The latency that a call records**, in microseconds, for decisions of some kind: that of an outcome whose
    decision is known and of the kind. -/
def recordedBy (s : FeedbackStorage) (about : Decision → Bool) : Op → List Nat
  | .recordOutcome _ outcome =>
    match s.decisions.lookup outcome.decisionId with
    | some decision => if about decision then [outcome.micros] else []
    | none => []
  | _ => []

/-- The latencies that some calls record, one after the other. -/
def latencies (about : Decision → Bool) : FeedbackStorage → List Op → List Nat
  | _, [] => []
  | s, op :: ops => s.recordedBy about op ++ latencies about (s.perform op) ops

/-- Of a type. -/
def ofType (t : DecisionType) (decision : Decision) : Bool := decision.decisionType = t

/-- With a target. -/
def withTarget (target : String) (decision : Decision) : Bool := decision.target = target

/-- A decision of a type is recorded. -/
def decides (t : DecisionType) : Op → Bool
  | .recordDecision _ _ decision => ofType t decision
  | _ => false

theorem latencies_append (about : Decision → Bool) (s : FeedbackStorage) (ops : List Op) (op : Op) :
    latencies about s (ops ++ [op]) = latencies about s ops ++ (ops.foldl perform s).recordedBy about op :=
  Transducer.gathered_append perform (fun s => s.recordedBy about) (latencies about) (fun _ => rfl) (fun _ _ _ => rfl) s ops op

theorem after_append (ops : List Op) (op : Op) : after (ops ++ [op]) = (after ops).perform op :=
  List.foldl_concat _ _ _ _

/-! ### What a call changes -/

/-- The statistics of a type, all zero where there are none. -/
def statsOfType (s : FeedbackStorage) (t : DecisionType) : TypeStatsInternal := (s.typeStats.lookup t).getD {}

/-- The moving average of a target, zero where there is none. -/
def emaOf (s : FeedbackStorage) (target : String) : UInt64 := (s.statsOfTarget target).emaLatencyUs

/-- The decisions that are known have their statistics. -/
structure Entered (s : FeedbackStorage) : Prop where
  types : ∀ id d, s.decisions.lookup id = some d → ∃ stats, s.typeStats.lookup d.decisionType = some stats
  targets : ∀ id d, s.decisions.lookup id = some d → ∃ stats, s.targetStats.lookup d.target = some stats

theorem emaOf_eq (s : FeedbackStorage) (target : String) :
    s.emaOf target = ((s.targetStats.lookup target).map TargetStatsInternal.emaLatencyUs).getD 0 := by
  rw [emaOf, statsOfTarget]
  cases s.targetStats.lookup target <;> rfl

theorem emaOf_recordDecision (order : IterOrder DecisionEntry) (clock : Clock) (decision : Decision)
    (s : FeedbackStorage) (target : String) :
    (s.recordDecision order clock decision).1.emaOf target = s.emaOf target := by
  have htargets : (s.recordDecision order clock decision).1.targetStats =
      orInsert decision.target { lastUpdate := clock.now } s.targetStats := rfl
  rw [emaOf_eq, emaOf_eq, htargets]
  by_cases htarget : target = decision.target
  · rw [htarget, lookup_orInsert_self]
    cases s.targetStats.lookup decision.target <;> rfl
  · rw [lookup_orInsert_ne _ _ htarget]

/-- **What a call does to the moving average of a target.** -/
theorem emaOf_perform {s : FeedbackStorage} (h : s.Entered) (op : Op) (target : String) :
    ((s.perform op).emaOf target = s.emaOf target ∧ s.recordedBy (withTarget target) op = []) ∨
      ∃ outcome : Outcome, (s.perform op).emaOf target = smoothUs (s.emaOf target) outcome.latencyUs ∧
        s.recordedBy (withTarget target) op = [outcome.micros] := by
  cases op with
  | recordDecision order clock decision => exact Or.inl ⟨emaOf_recordDecision order clock decision s target, rfl⟩
  | pruneFeedback clock maxAge => exact Or.inl ⟨rfl, rfl⟩
  | recordOutcome clock outcome =>
    rw [perform, recordOutcome, recordedBy]
    cases hfound : s.decisions.lookup outcome.decisionId with
    | none => exact Or.inl ⟨rfl, rfl⟩
    | some decision =>
      rw [emaOf_eq, emaOf_eq]
      dsimp only
      by_cases htarget : decision.target = target
      · refine Or.inr ⟨outcome, ?_, if_pos (decide_eq_true htarget)⟩
        obtain ⟨stats, hstats⟩ := h.targets _ decision hfound
        rw [htarget] at hstats ⊢
        rw [lookup_modify_self, hstats]
        rfl
      · refine Or.inl ⟨?_, if_neg fun heq => htarget (of_decide_eq_true heq)⟩
        rw [lookup_modify_ne _ _ (Ne.symm htarget)]

/-- **What a call does to the statistics of a type**: the decisions are counted, and the latencies added up. -/
theorem statsOfType_perform {s : FeedbackStorage} (h : s.Entered) (op : Op) (t : DecisionType) :
    ((s.perform op).statsOfType t).total = (s.statsOfType t).total + (if decides t op then 1 else 0) ∧
      ((s.perform op).statsOfType t).sumLatencyUs =
        (s.statsOfType t).sumLatencyUs + UInt64.ofNat (s.recordedBy (ofType t) op).sum := by
  have hzero : UInt64.ofNat [].sum = 0 := rfl
  cases op with
  | recordDecision order clock decision =>
    have hstats := History.typeStats_recordDecision order clock decision s t
    rw [← statsOfType, ← statsOfType] at hstats
    have hnothing : s.recordedBy (ofType t) (.recordDecision order clock decision) = [] := rfl
    rw [perform, hstats, hnothing, hzero, UInt64.add_zero]
    by_cases ht : decision.decisionType = t
    · have hdecides : decides t (.recordDecision order clock decision) = true := decide_eq_true ht
      rw [if_pos ht, if_pos hdecides]
      exact ⟨rfl, rfl⟩
    · have hdecides : ¬ decides t (.recordDecision order clock decision) = true := fun heq => ht (of_decide_eq_true heq)
      rw [if_neg ht, if_neg hdecides]
      exact ⟨rfl, rfl⟩
  | pruneFeedback clock maxAge =>
    have hnothing : s.recordedBy (ofType t) (.pruneFeedback clock maxAge) = [] := rfl
    rw [hnothing, hzero, UInt64.add_zero]
    exact ⟨rfl, rfl⟩
  | recordOutcome clock outcome =>
    have hnone : ¬ decides t (.recordOutcome clock outcome) = true := by simp [decides]
    rw [perform, recordOutcome, recordedBy, if_neg hnone, Nat.add_zero]
    cases hfound : s.decisions.lookup outcome.decisionId with
    | none =>
      dsimp only
      rw [hzero, UInt64.add_zero]
      exact ⟨rfl, rfl⟩
    | some decision =>
      rw [statsOfType, statsOfType]
      dsimp only
      by_cases ht : decision.decisionType = t
      · have hof : ofType t decision = true := decide_eq_true ht
        rw [if_pos hof, List.sum_singleton]
        obtain ⟨stats, hstats⟩ := h.types _ decision hfound
        rw [ht] at hstats ⊢
        rw [lookup_modify_self, hstats]
        exact ⟨rfl, rfl⟩
      · have hof : ¬ ofType t decision = true := fun heq => ht (of_decide_eq_true heq)
        rw [if_neg hof, hzero, UInt64.add_zero, lookup_modify_ne _ _ (Ne.symm ht)]
        exact ⟨rfl, rfl⟩

theorem Entered.perform {s : FeedbackStorage} (h : s.Entered) (op : Op) : (s.perform op).Entered := by
  cases op with
  | recordDecision order clock decision =>
    constructor
    · intro id d hd
      refine exists_lookup_modify (exists_lookup_orInsert ?_ _) _ _
      rcases lookup_of_recordDecision hd with ⟨-, rfl⟩ | hold
      · exact Or.inl rfl
      · exact Or.inr (h.types id d hold)
    · intro id d hd
      refine exists_lookup_orInsert ?_ _
      rcases lookup_of_recordDecision hd with ⟨-, rfl⟩ | hold
      · exact Or.inl rfl
      · exact Or.inr (h.targets id d hold)
  | pruneFeedback clock maxAge =>
    exact ⟨fun id d hd => h.types id d (lookup_of_pruneFeedback hd),
      fun id d hd => h.targets id d (lookup_of_pruneFeedback hd)⟩
  | recordOutcome clock outcome =>
    rw [FeedbackStorage.perform, recordOutcome]
    cases s.decisions.lookup outcome.decisionId with
    | none => exact h
    | some decision =>
      exact ⟨fun id d hd => exists_lookup_modify (h.types id d hd) _ _,
        fun id d hd => exists_lookup_modify (h.targets id d hd) _ _⟩

theorem entered_after (ops : List Op) : (after ops).Entered := by
  induction ops using List.reverseRecOn with
  | nil => exact ⟨fun id d hd => absurd hd (by simp [after, new]), fun id d hd => absurd hd (by simp [after, new])⟩
  | append_singleton ops op ih =>
    rw [after_append]
    exact ih.perform op

/-- **The statistics of a type after any calls**: how many decisions were recorded, and the sum of the latencies,
    as far as it fits. -/
theorem statsOfType_after (ops : List Op) (t : DecisionType) :
    ((after ops).statsOfType t).total = ops.countP (decides t) ∧
      ((after ops).statsOfType t).sumLatencyUs = UInt64.ofNat (latencies (ofType t) new ops).sum := by
  induction ops using List.reverseRecOn with
  | nil => exact ⟨rfl, rfl⟩
  | append_singleton ops op ih =>
    obtain ⟨htotal, hsum⟩ := statsOfType_perform (entered_after ops) op t
    rw [after_append, htotal, hsum, ih.1, ih.2, latencies_append, List.sum_append, UInt64.ofNat_add,
      List.countP_append, List.countP_singleton]
    exact ⟨rfl, rfl⟩

/-- **The moving average after any calls** is among the latencies of the target, if they are small. -/
theorem tracks_emaOf_after (ops : List Op) (target : String)
    (hsmall : ∀ x ∈ latencies (withTarget target) new ops, x < 2 ^ 60) :
    Tracks (latencies (withTarget target) new ops) ((after ops).emaOf target).toNat := by
  induction ops using List.reverseRecOn with
  | nil => exact Or.inl ⟨rfl, rfl⟩
  | append_singleton ops op ih =>
    rw [latencies_append, ← after] at hsmall ⊢
    have hkept := ih fun x hx => hsmall x (List.mem_append_left _ hx)
    rw [after_append]
    rcases emaOf_perform (entered_after ops) op target with ⟨hsame, hnone⟩ | ⟨outcome, hema, hone⟩
    · rw [hsame, hnone, List.append_nil]
      exact hkept
    · rw [hone] at hsmall ⊢
      have hlatency : outcome.micros < 2 ^ 60 := hsmall _ (by simp)
      have hbound := hkept.lt (by norm_num) fun x hx => hsmall x (List.mem_append_left _ hx)
      rw [hema, toNat_smoothUs_latencyUs hbound hlatency]
      exact hkept.smooth (by norm_num) _

end FeedbackStorage

/-! ## Persisted -/

namespace PersistentFeedback

theorem tracks_ema_after (ops : List Op) (target : String) (hsmall : ∀ x ∈ latencies target new ops, x < 2 ^ 60) :
    Tracks (latencies target new ops) ((after ops).statsOfTarget target).emaLatencyUs.toNat := by
  refine statsOfTarget_after target
    (P := fun xs stats => (∀ x ∈ xs, x < 2 ^ 60) → Tracks xs stats.emaLatencyUs.toNat) ?_ ?_ ops hsmall
  · intro _
    exact Or.inl ⟨rfl, rfl⟩
  · intro xs stats outcome hkept hsmall
    have hearlier : ∀ x ∈ xs, x < 2 ^ 60 := fun x hx => hsmall x (List.mem_append_left _ hx)
    have hlatency : outcome.micros < 2 ^ 60 := hsmall _ (by simp)
    have hbound := (hkept hearlier).lt (by norm_num) hearlier
    show Tracks _ (smoothUs stats.emaLatencyUs outcome.latencyUs).toNat
    rw [toNat_smoothUs_latencyUs hbound hlatency]
    exact (hkept hearlier).smooth (by norm_num) _

/-- **The mean that is kept of a target after any calls** is the running mean of its latencies, if their sum
    fits. -/
theorem avg_after (ops : List Op) (target : String) (hcount : (latencies target new ops).length < 2 ^ 64)
    (hsum : (latencies target new ops).sum < 2 ^ 64) :
    ((after ops).statsOfTarget target).avgLatencyUs.toNat = runningMean (latencies target new ops) := by
  have hkept := statsOfTarget_after target
    (P := fun xs stats => xs.length < 2 ^ 64 → xs.sum < 2 ^ 64 →
      stats.total = xs.length ∧ stats.avgLatencyUs.toNat = runningMean xs) ?_ ?_ ops
  · exact (hkept hcount hsum).2
  · intro _ _
    exact ⟨rfl, rfl⟩
  · intro xs stats outcome hkept hcount hsum
    have hadd : (xs ++ [outcome.micros]).sum = xs.sum + outcome.micros := by
      rw [List.sum_append, List.sum_singleton]
    have hlength : (xs ++ [outcome.micros]).length = xs.length + 1 := by simp
    have hfits : xs.sum < 2 ^ 64 ∧ outcome.micros < 2 ^ 64 := by omega
    obtain ⟨htotal, hmean⟩ := hkept (by omega) hfits.1
    have hus := Outcome.toNat_latencyUs hfits.2
    constructor
    · rw [hlength, ← htotal]
      rfl
    · show (meanUs stats.avgLatencyUs (stats.total + 1) outcome.latencyUs).toNat = _
      rw [htotal, toNat_meanUs hmean (by omega) (by rw [hus]; exact hsum), hus]

end PersistentFeedback

/-! ## Moving averages -/

/-- **The moving average of a target** is among the latencies that were recorded for it, in both stores and after
    any calls, if these are below `2 ^ 60` microseconds; and the next update does not overflow. -/
theorem ema_in_range (ops : List FeedbackStorage.Op) (persisted : List PersistentFeedback.Op) (target : String)
    (hsmall : ∀ x ∈ FeedbackStorage.latencies (FeedbackStorage.withTarget target) .new ops, x < 2 ^ 60)
    (hpersisted : ∀ x ∈ PersistentFeedback.latencies target .new persisted, x < 2 ^ 60) :
    ((FeedbackStorage.latencies (FeedbackStorage.withTarget target) .new ops ≠ [] →
        Among (FeedbackStorage.latencies (FeedbackStorage.withTarget target) .new ops)
          ((FeedbackStorage.after ops).statsOfTarget target).emaLatencyUs.toNat) ∧
      ∀ latency < 2 ^ 60,
        latency * 2 + ((FeedbackStorage.after ops).statsOfTarget target).emaLatencyUs.toNat * 8 < 2 ^ 64) ∧
    (PersistentFeedback.latencies target .new persisted ≠ [] →
        Among (PersistentFeedback.latencies target .new persisted)
          ((PersistentFeedback.after persisted).statsOfTarget target).emaLatencyUs.toNat) ∧
      ∀ latency < 2 ^ 60,
        latency * 2 + ((PersistentFeedback.after persisted).statsOfTarget target).emaLatencyUs.toNat * 8 < 2 ^ 64 := by
  have hmemory := FeedbackStorage.tracks_emaOf_after ops target hsmall
  have hstored := PersistentFeedback.tracks_ema_after persisted target hpersisted
  refine ⟨⟨hmemory.among, ?_⟩, hstored.among, ?_⟩
  · intro latency hlatency
    have hema := hmemory.lt (by norm_num) hsmall
    rw [FeedbackStorage.emaOf] at hema
    omega
  · intro latency hlatency
    have hema := hstored.lt (by norm_num) hpersisted
    omega

/-- One decision for a target, whose outcome is recorded three times: after 0, 1 and 2 microseconds. -/
def threeOutcomes : List FeedbackStorage.Op :=
  .recordDecision .listed ⟨0, 0⟩ ⟨⟨1⟩, .route, "mtn", 0⟩ ::
    [0, 1000, 2000].map fun latency => .recordOutcome ⟨0, 0⟩ ⟨⟨1⟩, true, latency⟩

/-- The same calls of the persistent store. -/
def threePersisted : List PersistentFeedback.Op :=
  .recordDecision ⟨0, 0⟩ ⟨⟨1⟩, .route, "mtn", 0⟩ ::
    [0, 1000, 2000].map fun latency => .recordOutcome ⟨0, 0⟩ ⟨⟨1⟩, true, latency⟩

theorem ema_in_range_three :
    FeedbackStorage.latencies (FeedbackStorage.withTarget "mtn") .new threeOutcomes = [0, 1, 2] ∧
      PersistentFeedback.latencies "mtn" .new threePersisted = [0, 1, 2] ∧
      (FeedbackStorage.latencies (FeedbackStorage.withTarget "mtn") .new threeOutcomes ≠ [] →
        Among (FeedbackStorage.latencies (FeedbackStorage.withTarget "mtn") .new threeOutcomes)
          ((FeedbackStorage.after threeOutcomes).statsOfTarget "mtn").emaLatencyUs.toNat) :=
  ⟨by decide +kernel, by decide +kernel,
    (ema_in_range threeOutcomes threePersisted "mtn" (by decide +kernel) (by decide +kernel)).1.1⟩

/-! ## Means -/

namespace FeedbackStorage

/-- What is known was recorded. -/
theorem decided_of_lookup (ops : List Op) {id : DecisionId} {d : Decision}
    (h : (after ops).decisions.lookup id = some d) : 0 < ops.countP (decides d.decisionType) := by
  induction ops using List.reverseRecOn generalizing id with
  | nil => exact absurd h (by simp [after, new])
  | append_singleton ops op ih =>
    rw [after_append] at h
    rw [List.countP_append]
    have hearlier : ∀ id, (after ops).decisions.lookup id = some d →
        0 < ops.countP (decides d.decisionType) + [op].countP (decides d.decisionType) :=
      fun id hold => Nat.add_pos_left (ih hold) _
    cases op with
    | recordDecision order clock decision =>
      rcases lookup_of_recordDecision h with ⟨-, rfl⟩ | hold
      · have hdecides : decides d.decisionType (.recordDecision order clock d) = true := decide_eq_true rfl
        rw [List.countP_singleton, if_pos hdecides]
        exact Nat.succ_pos _
      · exact hearlier id hold
    | pruneFeedback clock maxAge => exact hearlier id (lookup_of_pruneFeedback h)
    | recordOutcome clock outcome =>
      refine hearlier id ?_
      rw [perform, recordOutcome] at h
      split at h <;> exact h

/-- Where a latency was recorded, a decision was. -/
theorem decided_of_latencies (ops : List Op) {t : DecisionType} (h : latencies (ofType t) new ops ≠ []) :
    0 < ops.countP (decides t) := by
  induction ops using List.reverseRecOn with
  | nil => exact absurd rfl h
  | append_singleton ops op ih =>
    rw [latencies_append, ← after] at h
    rw [List.countP_append]
    by_cases hearlier : latencies (ofType t) new ops = []
    · rw [hearlier, List.nil_append] at h
      cases op with
      | recordDecision order clock decision => exact absurd rfl h
      | pruneFeedback clock maxAge => exact absurd rfl h
      | recordOutcome clock outcome =>
        rw [recordedBy] at h
        cases hfound : (after ops).decisions.lookup outcome.decisionId with
        | none =>
          rw [hfound] at h
          exact absurd rfl h
        | some decision =>
          rw [hfound] at h
          dsimp only at h
          split at h
          · rename_i hof
            have hdecided := decided_of_lookup ops hfound
            rw [of_decide_eq_true hof] at hdecided
            exact Nat.add_pos_left hdecided _
          · exact absurd rfl h
    · exact Nat.add_pos_left (ih hearlier) _

/-- **The average that is reported for a type** is the floor of the mean exactly when the floor is the same for the
    number of decisions. -/
theorem avg_decisionStats_iff (ops : List Op) (t : DecisionType) (h : latencies (ofType t) new ops ≠ [])
    (hsum : (latencies (ofType t) new ops).sum < 2 ^ 64) :
    (((after ops).decisionStats t).avgLatencyUs.toNat =
        (latencies (ofType t) new ops).sum / (latencies (ofType t) new ops).length) ↔
      (latencies (ofType t) new ops).sum / (latencies (ofType t) new ops).length * ops.countP (decides t) ≤
          (latencies (ofType t) new ops).sum ∧
        (latencies (ofType t) new ops).sum <
          ((latencies (ofType t) new ops).sum / (latencies (ofType t) new ops).length + 1) *
            ops.countP (decides t) := by
  obtain ⟨htotal, hlatency⟩ := statsOfType_after ops t
  have hdecided := decided_of_latencies ops h
  have hreported : ((after ops).decisionStats t).avgLatencyUs =
      avgLatency ((after ops).statsOfType t).sumLatencyUs ((after ops).statsOfType t).total := by
    rw [decisionStats, statsOfType]
    cases (after ops).typeStats.lookup t <;> rfl
  have hfloor : ((after ops).decisionStats t).avgLatencyUs.toNat =
      (latencies (ofType t) new ops).sum / ops.countP (decides t) := by
    rw [hreported, avgLatency, htotal, hlatency, if_pos hdecided, UInt64.toNat_ofNat_of_lt' hsum]
    exact UInt64.toNat_ofNat_of_lt' ((Nat.div_le_self _ _).trans_lt hsum)
  rw [hfloor, Nat.div_eq_iff hdecided, Nat.add_mul, Nat.one_mul]
  omega

end FeedbackStorage

section Messages

open Smppd.Filter

/-- The latencies of the messages that are recorded for an ESME. -/
def messageLatencies (esmeId : String) (events : List UsageEvent) : List Nat :=
  events.filterMap fun event =>
    match event with
    | .recordMessage id _ _ _ latencyMs => if id = esmeId then some latencyMs.toNat else none
    | _ => none

/-- The statistics of an ESME, as `record_message` finds them. -/
def usageOf (manager : EsmeManager) (esmeId : String) : EsmeUsageStats :=
  (manager.stats.lookup esmeId).getD { esmeId }

/-- What a message does to the average, when `n` have been counted. -/
theorem avg_count {entry : EsmeUsageStats} {n : Nat}
    (hcount : entry.deliveredMessages + entry.failedMessages = UInt64.ofNat n) (cost revenue : Int64)
    (delivered : Bool) (latencyMs : UInt64) :
    (entry.count cost revenue delivered latencyMs).deliveredMessages +
          (entry.count cost revenue delivered latencyMs).failedMessages = UInt64.ofNat (n + 1) ∧
      (entry.count cost revenue delivered latencyMs).avgLatencyMs = meanUs entry.avgLatencyMs (n + 1) latencyMs := by
  have hnext : UInt64.ofNat (n + 1) = UInt64.ofNat n + 1 := UInt64.ofNat_add n 1
  have htotal : (entry.count cost revenue delivered latencyMs).deliveredMessages +
      (entry.count cost revenue delivered latencyMs).failedMessages = UInt64.ofNat (n + 1) := by
    rw [hnext, ← hcount]
    cases delivered with
    | true =>
      show entry.deliveredMessages + 1 + entry.failedMessages = entry.deliveredMessages + entry.failedMessages + 1
      rw [UInt64.add_assoc, UInt64.add_comm 1, ← UInt64.add_assoc]
    | false => exact (UInt64.add_assoc _ _ _).symm
  refine ⟨htotal, ?_⟩
  have havg : (entry.count cost revenue delivered latencyMs).avgLatencyMs =
      (entry.avgLatencyMs * ((entry.count cost revenue delivered latencyMs).deliveredMessages +
          (entry.count cost revenue delivered latencyMs).failedMessages - 1) + latencyMs) /
        ((entry.count cost revenue delivered latencyMs).deliveredMessages +
          (entry.count cost revenue delivered latencyMs).failedMessages) := by
    cases delivered <;> rfl
  rw [havg, htotal, meanUs, Nat.add_sub_cancel, hnext, UInt64.add_sub_cancel]

/-- An event is for the statistics of an ESME what it records for it. -/
theorem usageOf_perform (manager : EsmeManager) (event : UsageEvent) (esmeId : String) :
    (usageOf (manager.perform event) esmeId = usageOf manager esmeId ∧ messageLatencies esmeId [event] = []) ∨
      ∃ cost revenue delivered latencyMs,
        usageOf (manager.perform event) esmeId = (usageOf manager esmeId).count cost revenue delivered latencyMs ∧
          messageLatencies esmeId [event] = [latencyMs.toNat] := by
  cases event with
  | resetDailyQuotas => exact Or.inl ⟨rfl, rfl⟩
  | resetMonthlyQuotas => exact Or.inl ⟨rfl, rfl⟩
  | recordMessage id cost revenue delivered latencyMs =>
    rw [EsmeManager.perform, EsmeManager.recordMessage, usageOf, usageOf]
    by_cases hid : id = esmeId
    · subst hid
      refine Or.inr ⟨cost, revenue, delivered, latencyMs, ?_, by simp [messageLatencies]⟩
      dsimp only
      rw [AList.lookup_insert, Option.getD_some]
    · refine Or.inl ⟨?_, by simp [messageLatencies, hid]⟩
      dsimp only
      rw [AList.lookup_insert_ne (Ne.symm hid)]

/-- **The mean that is kept of an ESME after any events** is the running mean of its latencies, if their sum
    fits. -/
theorem avg_usageOf (store : MemoryEsmeStore) (events : List UsageEvent) (esmeId : String)
    (hcount : (messageLatencies esmeId events).length < 2 ^ 64)
    (hsum : (messageLatencies esmeId events).sum < 2 ^ 64) :
    (usageOf (events.foldl EsmeManager.perform ⟨store, ∅⟩) esmeId).avgLatencyMs.toNat =
      runningMean (messageLatencies esmeId events) := by
  have hkept : (usageOf (events.foldl EsmeManager.perform ⟨store, ∅⟩) esmeId).deliveredMessages +
        (usageOf (events.foldl EsmeManager.perform ⟨store, ∅⟩) esmeId).failedMessages =
          UInt64.ofNat (messageLatencies esmeId events).length ∧
      (usageOf (events.foldl EsmeManager.perform ⟨store, ∅⟩) esmeId).avgLatencyMs.toNat =
        runningMean (messageLatencies esmeId events) := by
    induction events using List.reverseRecOn with
    | nil => exact ⟨rfl, rfl⟩
    | append_singleton events event ih =>
      have happend : messageLatencies esmeId (events ++ [event]) =
          messageLatencies esmeId events ++ messageLatencies esmeId [event] := List.filterMap_append
      rw [happend] at hcount hsum ⊢
      rw [List.length_append] at hcount
      rw [List.sum_append] at hsum
      obtain ⟨htotal, hmean⟩ := ih (by omega) (by omega)
      rw [List.foldl_concat]
      rcases usageOf_perform (events.foldl EsmeManager.perform ⟨store, ∅⟩) event esmeId with
        ⟨hsame, hnone⟩ | ⟨cost, revenue, delivered, latencyMs, hcounted, hone⟩
      · rw [hsame, hnone, List.append_nil]
        exact ⟨htotal, hmean⟩
      · rw [hone] at hcount hsum ⊢
        obtain ⟨hnext, havg⟩ := avg_count htotal cost revenue delivered latencyMs
        rw [hcounted, hnext, havg, List.length_append, List.length_singleton]
        refine ⟨rfl, toNat_meanUs hmean hcount ?_⟩
        rw [List.sum_append]
        exact hsum
  exact hkept.2

/-- **Reported averages are averages** exactly so far: for all messages of an ESME, and for all outcomes of a target
    that are persisted, the mean that is kept is less than one off the true one if and only if the divisions have
    dropped less than there are latencies; and the average of a decision type is the floor of the mean if and only if
    the number of decisions, those without an outcome included, has the same floor as the number of outcomes. -/
theorem averages_iff (store : MemoryEsmeStore) (events : List UsageEvent) (esmeId : String)
    (persisted : List PersistentFeedback.Op) (target : String) (ops : List FeedbackStorage.Op) (t : DecisionType)
    (hmessages : messageLatencies esmeId events ≠ []) (hmessagesCount : (messageLatencies esmeId events).length < 2 ^ 64)
    (hmessagesSum : (messageLatencies esmeId events).sum < 2 ^ 64)
    (hpersisted : PersistentFeedback.latencies target .new persisted ≠ [])
    (hpersistedCount : (PersistentFeedback.latencies target .new persisted).length < 2 ^ 64)
    (hpersistedSum : (PersistentFeedback.latencies target .new persisted).sum < 2 ^ 64)
    (houtcomes : FeedbackStorage.latencies (FeedbackStorage.ofType t) .new ops ≠ [])
    (houtcomesSum : (FeedbackStorage.latencies (FeedbackStorage.ofType t) .new ops).sum < 2 ^ 64) :
    (Near (usageOf (events.foldl EsmeManager.perform ⟨store, ∅⟩) esmeId).avgLatencyMs.toNat
          (messageLatencies esmeId events) ↔
        dropped (messageLatencies esmeId events) < (messageLatencies esmeId events).length) ∧
      (Near ((PersistentFeedback.after persisted).statsOfTarget target).avgLatencyUs.toNat
          (PersistentFeedback.latencies target .new persisted) ↔
        dropped (PersistentFeedback.latencies target .new persisted) <
          (PersistentFeedback.latencies target .new persisted).length) ∧
      (((FeedbackStorage.after ops).decisionStats t).avgLatencyUs.toNat =
          (FeedbackStorage.latencies (FeedbackStorage.ofType t) .new ops).sum /
            (FeedbackStorage.latencies (FeedbackStorage.ofType t) .new ops).length ↔
        (FeedbackStorage.latencies (FeedbackStorage.ofType t) .new ops).sum /
              (FeedbackStorage.latencies (FeedbackStorage.ofType t) .new ops).length *
            ops.countP (FeedbackStorage.decides t) ≤
            (FeedbackStorage.latencies (FeedbackStorage.ofType t) .new ops).sum ∧
          (FeedbackStorage.latencies (FeedbackStorage.ofType t) .new ops).sum <
            ((FeedbackStorage.latencies (FeedbackStorage.ofType t) .new ops).sum /
                (FeedbackStorage.latencies (FeedbackStorage.ofType t) .new ops).length + 1) *
              ops.countP (FeedbackStorage.decides t)) := by
  refine ⟨?_, ?_, FeedbackStorage.avg_decisionStats_iff ops t houtcomes houtcomesSum⟩
  · rw [avg_usageOf store events esmeId hmessagesCount hmessagesSum]
    exact runningMean_near_iff hmessages
  · rw [PersistentFeedback.avg_after persisted target hpersistedCount hpersistedSum]
    exact runningMean_near_iff hpersisted

/-- Three messages, after 0, 1 and 2 milliseconds. -/
def threeMessages : List UsageEvent := [0, 1, 2].map fun latency => .recordMessage "c1" 0 0 true latency

/-- Two decisions, one of which has its outcome after 3 microseconds. -/
def oneWaiting : List FeedbackStorage.Op :=
  [.recordDecision .listed ⟨0, 0⟩ ⟨⟨1⟩, .route, "mtn", 0⟩, .recordDecision .listed ⟨0, 0⟩ ⟨⟨2⟩, .route, "mtn", 0⟩,
    .recordOutcome ⟨0, 0⟩ ⟨⟨1⟩, true, 3000⟩]

theorem averages_iff_three :
    (Near (usageOf (threeMessages.foldl EsmeManager.perform ⟨⟨∅, ∅⟩, ∅⟩) "c1").avgLatencyMs.toNat [0, 1, 2] ↔
        dropped [0, 1, 2] < 3) ∧
      (Near ((PersistentFeedback.after threePersisted).statsOfTarget "mtn").avgLatencyUs.toNat [0, 1, 2] ↔
        dropped [0, 1, 2] < 3) := by
  have hmessages : messageLatencies "c1" threeMessages = [0, 1, 2] := by decide +kernel
  have hpersisted : PersistentFeedback.latencies "mtn" .new threePersisted = [0, 1, 2] := by decide +kernel
  have hthree := averages_iff ⟨∅, ∅⟩ threeMessages "c1" threePersisted "mtn" threeOutcomes .route
    (by decide +kernel) (by decide +kernel) (by decide +kernel) (by decide +kernel) (by decide +kernel)
    (by decide +kernel) (by decide +kernel) (by decide +kernel)
  rw [hmessages, hpersisted] at hthree
  exact ⟨hthree.1, hthree.2.1⟩

/-- The mean of 0, 1 and 2 is 1, and 0 is kept; and an outcome after 3 microseconds is reported as 1. -/
theorem averages_wrong :
    ¬ Near (usageOf (threeMessages.foldl EsmeManager.perform ⟨⟨∅, ∅⟩, ∅⟩) "c1").avgLatencyMs.toNat
        (messageLatencies "c1" threeMessages) ∧
      ¬ Near ((PersistentFeedback.after threePersisted).statsOfTarget "mtn").avgLatencyUs.toNat
        (PersistentFeedback.latencies "mtn" .new threePersisted) ∧
      ¬ ((FeedbackStorage.after oneWaiting).decisionStats .route).avgLatencyUs.toNat =
        (FeedbackStorage.latencies (FeedbackStorage.ofType .route) .new oneWaiting).sum /
          (FeedbackStorage.latencies (FeedbackStorage.ofType .route) .new oneWaiting).length := by
  have hmessages : messageLatencies "c1" threeMessages = [0, 1, 2] := by decide +kernel
  have hpersisted : PersistentFeedback.latencies "mtn" .new threePersisted = [0, 1, 2] := by decide +kernel
  have hkept : (usageOf (threeMessages.foldl EsmeManager.perform ⟨⟨∅, ∅⟩, ∅⟩) "c1").avgLatencyMs.toNat = 0 := by
    decide +kernel
  have hstored : ((PersistentFeedback.after threePersisted).statsOfTarget "mtn").avgLatencyUs.toNat = 0 := by
    decide +kernel
  have hfar : ¬ Near 0 [0, 1, 2] := by norm_num [Near]
  rw [hmessages, hpersisted, hkept, hstored]
  exact ⟨hfar, hfar, by decide +kernel⟩

end Messages

end Smppd.Store
