/-
  The LIFE of a message in the persistent store.

  A message is written, and then loaded, changed and written again any number of times, at any times; a
  restart in between leaves the partitions as they are and only sets the monotonic clock anew.  `written` is
  what was written last, computed with no store: each round changes what comes back of the round before.

  * `get_rounds` — what is loaded is what was written last, sent once through the record (`reload`);
  * `kept_reload_iff` — a record keeps every field but the ttl, and the ttl when it is whole seconds;
  * but it has no place for the creation instant, so the age of a loaded message counts from the load.  It
    is expired when it should be exactly where the two ages are on the same side of the ttl.
-/
import Smppd.Store.Contents

set_option linter.unusedVariables false

namespace Smppd.Store.PersistentStorage

open Table Machine

/-! ## Rounds -/

/-- One round: the message is loaded at `clock`, changed, and written back. -/
structure Round where
  clock : Clock
  change : Keeping

/-- The last message written, and when, after the rounds. -/
def written (first : Clock × StoredMessage) (rounds : List Round) : Clock × StoredMessage :=
  rounds.foldl (fun last r => (r.clock, r.change.apply (reload last.1 r.clock last.2))) first

/-- The store after the rounds. -/
def afterRounds (id : MessageId) (rounds : List Round) (s : PersistentStorage) : PersistentStorage :=
  rounds.foldl (fun s r => (s.update r.clock id r.change.apply).1) s

/-- **The run lemma**, by induction on the rounds: the store has what was written last. -/
theorem get_afterRounds {s : PersistentStorage} (h : Covered s) {id : MessageId} {last : Clock × StoredMessage}
    (hget : ∀ clock, s.get clock id = some (reload last.1 clock last.2)) (rounds : List Round) (clock : Clock) :
    (s.afterRounds id rounds).get clock id =
      some (reload (written last rounds).1 clock (written last rounds).2) := by
  induction rounds generalizing s last with
  | nil => exact hget clock
  | cons r rounds ih =>
    refine ih (covered_update h r.clock id r.change) fun clock' => ?_
    rw [h.get_update, if_pos rfl, hget]
    rfl

theorem get_rounds {s : PersistentStorage} (h : Covered s) (first : Clock) (m : StoredMessage)
    (rounds : List Round) (clock : Clock) :
    ((s.store first m).afterRounds m.id rounds).get clock m.id =
      some (reload (written (first, m) rounds).1 clock (written (first, m) rounds).2) := by
  refine get_afterRounds (h.others m.id).persist (fun clock' => ?_) rounds clock
  exact (get_persist first clock' m s m.id).trans (if_pos rfl)

/-! ## What a record keeps -/

/-- The message but for its timestamps and its history. -/
def kept (m : StoredMessage) : StoredMessage :=
  { m with createdAt := 0, createdTime := 0, updatedAt := 0, retryAt := none, events := [] }

theorem Priority.ofCode_code (p : Priority) : Priority.ofCode p.code = p := by
  cases p <;> rfl

/-- A ttl that a record can hold. -/
def WholeSeconds (ttl : Duration) : Prop := 1000000000 ∣ ttl ∧ ttl / 1000000000 < 2 ^ 64

theorem wholeSeconds_iff (ttl : Duration) :
    fromSecs (UInt64.ofNat (ttl / 1000000000)).toNat = ttl ↔ WholeSeconds ttl := by
  unfold fromSecs WholeSeconds
  rw [UInt64.toNat_ofNat']
  constructor
  · intro heq
    have hdiv : ttl / 1000000000 = ttl / 1000000000 % 2 ^ 64 := by
      conv_lhs => rw [← heq]
      exact Nat.mul_div_cancel _ (by decide)
    refine ⟨⟨_, heq.symm.trans (Nat.mul_comm _ _)⟩, ?_⟩
    rw [hdiv]
    exact Nat.mod_lt _ (by decide)
  · rintro ⟨hdvd, hlt⟩
    rw [Nat.mod_eq_of_lt hlt]
    exact Nat.div_mul_cancel hdvd

/-- **What a record keeps**: everything but the ttl, and the ttl too when it is whole seconds. -/
theorem kept_reload_iff (clock clock' : Clock) (m : StoredMessage) :
    kept (reload clock clock' m) = kept m ↔ WholeSeconds m.ttl := by
  rw [← wholeSeconds_iff]
  have hkept : kept (reload clock clock' m) =
      { kept m with ttl := fromSecs (UInt64.ofNat (m.ttl / 1000000000)).toNat } := by
    unfold kept reload persistedToStored toPersisted
    simp only [MessageState.ofCode_code, Priority.ofCode_code]
  rw [hkept]
  constructor
  · intro heq
    exact congrArg StoredMessage.ttl heq
  · intro heq
    rw [heq]
    rfl

/-! ## The life of a message -/

/-- Whenever the message is loaded on the way, each field comes back as it was last written. -/
def KeepsFields (s : PersistentStorage) (first : Clock) (m : StoredMessage) (rounds : List Round) : Prop :=
  ∀ before after, rounds = before ++ after → ∀ clock, ∃ m',
    ((s.store first m).afterRounds m.id before).get clock m.id = some m' ∧
      kept m' = kept (written (first, m) before).2

/-- A message is always written with a ttl that a record can hold. -/
def WritesWholeSeconds (first : Clock) (m : StoredMessage) (rounds : List Round) : Prop :=
  ∀ before after, rounds = before ++ after → WholeSeconds (written (first, m) before).2.ttl

theorem keepsFields_iff {s : PersistentStorage} (h : Covered s) (first : Clock) (m : StoredMessage)
    (rounds : List Round) : KeepsFields s first m rounds ↔ WritesWholeSeconds first m rounds := by
  have hload := get_rounds h first m
  constructor
  · intro hkeeps before after hsplit
    obtain ⟨m', hget, hkept⟩ := hkeeps before after hsplit first
    obtain rfl := Option.some.inj ((hload before first).symm.trans hget)
    exact (kept_reload_iff _ first _).mp hkept
  · intro hwhole before after hsplit clock
    exact ⟨_, hload before clock, (kept_reload_iff _ clock _).mpr (hwhole before after hsplit)⟩

/-- The loaded message `m` lives as long as `w`, the one last written, created at `created`. -/
structure SameLife (created : SystemTime) (t : Clock) (w m : StoredMessage) : Prop where
  expired : m.isExpired t = true ↔ (w.ttl : Int) < t.wall - created
  retry : m.canRetry t = true ↔ w.attempts < w.maxAttempts ∧ ¬ (w.ttl : Int) < t.wall - created

theorem isExpired_reload {w : StoredMessage} (hwhole : WholeSeconds w.ttl) (clock loaded t : Clock) :
    (reload clock loaded w).isExpired t = true ↔ (w.ttl : Int) < t.now - loaded.now := by
  have httl : (reload clock loaded w).ttl = w.ttl := (wholeSeconds_iff w.ttl).mpr hwhole
  rw [StoredMessage.isExpired, decide_eq_true_eq, httl]
  exact Int.lt_toNat

theorem sameLife_reload_iff {w : StoredMessage} (hwhole : WholeSeconds w.ttl) (clock loaded t : Clock)
    (created : SystemTime) :
    SameLife created t w (reload clock loaded w) ↔
      ((w.ttl : Int) < t.now - loaded.now ↔ (w.ttl : Int) < t.wall - created) := by
  have hexpired := isExpired_reload hwhole clock loaded t
  constructor
  · intro hlife
    exact hexpired.symm.trans hlife.expired
  · intro hage
    rw [hage] at hexpired
    refine ⟨hexpired, ?_⟩
    show (decide (w.attempts < w.maxAttempts) && !(reload clock loaded w).isExpired t) = true ↔ _
    rw [Bool.and_eq_true, decide_eq_true_eq, Bool.not_eq_true', Bool.eq_false_iff, Ne, hexpired]

/-- **The life of a message.**  In every store reached, a message stored and taken through any rounds of load
    and update keeps its fields, and lives as long as its creation time and its ttl say, exactly when its
    ttl is whole seconds whenever it is written, and the time since the last load and the time since the
    creation are on the same side of it. -/
theorem same_life_iff (ops : List Op) (s : PersistentStorage) (hrun : run performing empty ops = some s)
    (first : Clock) (m : StoredMessage) (rounds : List Round) (loaded t : Clock) :
    let w := (written (first, m) rounds).2
    ∃ m', ((s.store first m).afterRounds m.id rounds).get loaded m.id = some m' ∧
      (KeepsFields s first m rounds ∧ SameLife m.createdTime t w m' ↔
        WritesWholeSeconds first m rounds ∧
          ((w.ttl : Int) < t.now - loaded.now ↔ (w.ttl : Int) < t.wall - m.createdTime)) := by
  intro w
  have hcovered := run_covered hrun
  refine ⟨_, get_rounds hcovered first m rounds loaded, ?_⟩
  rw [keepsFields_iff hcovered]
  refine and_congr_right fun hwhole => ?_
  have hlast : WholeSeconds w.ttl := hwhole rounds [] (List.append_nil rounds).symm
  exact sameLife_reload_iff hlast _ loaded t m.createdTime

/-- A message that is marked in flight, and loaded two hours later. -/
theorem same_life_after_two_hours :
    let later : Clock := ⟨fromSecs 7200, fromSecs 7200⟩
    let rounds : List Round := [⟨⟨1, 1⟩, ⟨.markInFlight ⟨1, 1⟩ "smsc" "smsc-1", fun _ => rfl⟩⟩]
    let w := (written (⟨0, 0⟩, .sample 0) rounds).2
    ∃ m', ((empty.store ⟨0, 0⟩ (.sample 0)).afterRounds (StoredMessage.sample 0).id rounds).get later
        (StoredMessage.sample 0).id = some m' ∧
      (KeepsFields empty ⟨0, 0⟩ (.sample 0) rounds ∧ SameLife 0 later w m' ↔
        WritesWholeSeconds ⟨0, 0⟩ (.sample 0) rounds ∧
          ((w.ttl : Int) < later.now - later.now ↔ (w.ttl : Int) < later.wall - 0)) := by
  intro later rounds w
  exact same_life_iff [] empty rfl ⟨0, 0⟩ (.sample 0) rounds later later

/-- Two hours old with a ttl of one hour, and not expired: it has only just been loaded. -/
theorem same_life_begins_again :
    let later : Clock := ⟨fromSecs 7200, fromSecs 7200⟩
    ∃ m', (empty.store ⟨0, 0⟩ (.sample 0)).get later (StoredMessage.sample 0).id = some m' ∧
      (StoredMessage.sample 0).isExpired later = true ∧ m'.isExpired later = false ∧
        ¬ SameLife (StoredMessage.sample 0).createdTime later (.sample 0) m' := by
  intro later
  have hwhole : WholeSeconds (StoredMessage.sample 0).ttl := ⟨by decide, by decide⟩
  refine ⟨_, get_rounds covered_empty ⟨0, 0⟩ (.sample 0) [] later, by decide, by decide, fun hsame => ?_⟩
  have hlives := (sameLife_reload_iff hwhole ⟨0, 0⟩ later later 0).mp hsame
  exact absurd (hlives.mpr (by decide)) (by decide)

end Smppd.Store.PersistentStorage
