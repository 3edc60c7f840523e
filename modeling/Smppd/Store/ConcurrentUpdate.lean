/-
  CONCURRENT UPDATES of one persistent message.

  `PersistentStorage::update` is a read, a conditional remove and two inserts on two partitions, with
  no lock or transaction around them.  Here the call is cut at its four partition accesses
  (`Call.access`), and two calls on the same id are interleaved by a SCHEDULE, the list of which call
  makes the next access.  Run alone, the four accesses are the `update` of the sequential model
  (`alone_eq_update`).

  A schedule is `Undisturbed` when neither call reads the record between the other's read and its
  record write, and neither drops its old index entry between the other's record write and index
  write.  Two facts make that the exact condition:

  * an undisturbed schedule keeps the two calls in PHASE — one of them is the first, and the second
    sees the first's record (`phase_step`), so the outcome is a serial one;
  * a schedule that is disturbed either loses an update (two increments, one survives) or leaves a
    second index entry behind (two transitions, two entries).
-/
import Smppd.Lib.Machine
import Smppd.Store.StateIndex

set_option linter.unusedVariables false

namespace Smppd.Store.PersistentStorage

open Table Machine

/-! ## The four accesses of a call -/

/-- A call `update(id, f)` with the clock readings of its load and its persist. -/
structure Call where
  f : Keeping
  loadClock : Clock
  persistClock : Clock

/-- Where a call stands between two accesses, with the message it holds. -/
inductive Pc where
  | start
  | loaded (old : MessageState) (msg : StoredMessage)
  | unindexed (msg : StoredMessage)
  | written (msg : StoredMessage)
  | finished (found : Bool)

/-- How many accesses a call that found its message has made. -/
def Pc.stage : Pc → Nat
  | .start => 0
  | .loaded _ _ => 1
  | .unindexed _ => 2
  | .written _ => 3
  | .finished _ => 4

/-- The next access of the call. -/
def Call.access (id : MessageId) (c : Call) (s : PersistentStorage) :
    Pc → Option (PersistentStorage × Pc)
  | .start =>
    match s.loadMessage c.loadClock id with
    | some msg => some (s, .loaded msg.state (c.f.apply msg))
    | none => some (s, .finished false)
  | .loaded old msg =>
    some (if old ≠ msg.state then s.removeStateIndex old id else s, .unindexed msg)
  | .unindexed msg => some (s.insertRecord (toPersisted c.persistClock msg), .written msg)
  | .written msg => some (s.insertStateIndex (toPersisted c.persistClock msg), .finished true)
  | .finished _ => none

/-- A call run to its end with nobody in between. -/
def Call.alone (id : MessageId) (c : Call) (s : PersistentStorage) : Option PersistentStorage := do
  let (s₁, pc₁) ← c.access id s .start
  let (s₂, pc₂) ← c.access id s₁ pc₁
  let (s₃, pc₃) ← c.access id s₂ pc₂
  let (s₄, _) ← c.access id s₃ pc₃
  return s₄

/-- The four accesses, run alone, are the sequential `update`. -/
theorem alone_eq_update {s : PersistentStorage} {id : MessageId} {p : PersistedMessage}
    (hp : s.messages.lookup (msgKey id) = some p) (f : Keeping) (clock : Clock) :
    Call.alone id ⟨f, clock, clock⟩ s = some (s.update clock id f.apply).1 := by
  unfold Call.alone update loadMessage
  simp only [Call.access, loadMessage, hp, Option.map_some]
  rfl

/-! ## Two calls under a schedule -/

/-- The two calls. -/
inductive Who where
  | f
  | g
  deriving DecidableEq

/-- The other call. -/
def Who.other : Who → Who
  | .f => .g
  | .g => .f

theorem Who.other_ne (w : Who) : w.other ≠ w := by cases w <;> decide

theorem Who.eq_or_other (w x : Who) : w = x ∨ w = x.other := by cases w <;> cases x <;> decide

theorem Who.other_other (w : Who) : w.other.other = w := by cases w <;> rfl

/-- The store and where each call stands. -/
structure Joint where
  store : PersistentStorage
  pc : Who → Pc

/-- Both calls about to make their first access. -/
def Joint.begin (s : PersistentStorage) : Joint := ⟨s, fun _ => .start⟩

/-- One access of the named call. -/
def Joint.step (id : MessageId) (calls : Who → Call) (j : Joint) (w : Who) : Option Joint :=
  ((calls w).access id j.store (j.pc w)).map fun r => ⟨r.1, Function.update j.pc w r.2⟩

/-- What a call makes of a stored record. -/
def Call.applied (c : Call) (p : PersistedMessage) : PersistedMessage :=
  toPersisted c.persistClock (c.f.apply (persistedToStored c.loadClock p))

/-- The outcome of running the two calls one after the other, in one of the two orders: the record,
    and exactly one index entry, under the state of that record. -/
def Serializable (id : MessageId) (p : PersistedMessage) (calls : Who → Call)
    (s : PersistentStorage) : Prop :=
  ∃ w : Who, s.messages.lookup (msgKey id)
      = some ((calls w.other).applied ((calls w).applied p)) ∧
    OneEntry s id ((calls w.other).applied ((calls w).applied p)).state

/-- The access a call makes at stage `own` falls into a gap of the other call, which is at stage
    `other`: a read between the other's read and record write, or an index removal between the
    other's record write and index write. -/
def Clash (own other : Nat) : Prop := (own = 0 ∧ (other = 1 ∨ other = 2)) ∨ (own = 1 ∧ other = 3)

instance (own other : Nat) : Decidable (Clash own other) := by unfold Clash; infer_instance

/-- No access of the schedule clashes, when the calls have made `n` accesses already. -/
def Undisturbed : (Who → Nat) → List Who → Prop
  | _, [] => True
  | n, w :: σ => ¬ Clash (n w) (n w.other) ∧ Undisturbed (Function.update n w (n w + 1)) σ

/-! ## What one access does to the two partitions -/

/-- The record under the id of the calls. -/
def recordOf (id : MessageId) (s : PersistentStorage) : Option PersistedMessage :=
  s.messages.lookup (msgKey id)

/-- The index entries of the id between a call's removal and its insertion: the old entry if the
    state stays, none otherwise. -/
def AfterDrop (s : PersistentStorage) (id : MessageId) (old new : UInt8) : Prop :=
  ∀ c v, s.messagesByState.lookup (stateKey c id) = some v ↔
    c = old ∧ old = new ∧ v = toBeBytes id.val

theorem afterDrop_of_oneEntry {s : PersistentStorage} {id : MessageId} {old new : MessageState}
    (h : OneEntry s id old.code) :
    AfterDrop (if old ≠ new then s.removeStateIndex old id else s) id old.code new.code := by
  intro c v
  by_cases hst : old = new
  · subst hst
    rw [if_neg (not_not.mpr rfl), h c v]
    exact ⟨fun hc => ⟨hc.1, rfl, hc.2⟩, fun hc => ⟨hc.1, hc.2.2⟩⟩
  · rw [if_pos hst]
    have hcode : old.code ≠ new.code := fun hc => hst (MessageState.code_injective hc)
    show (s.messagesByState.erase (stateKey old.code id)).lookup (stateKey c id) = some v ↔ _
    by_cases hc : c = old.code
    · subst hc
      rw [AList.lookup_erase]
      exact ⟨nofun, fun hr => absurd hr.2.1 hcode⟩
    · rw [AList.lookup_erase_ne fun hk => hc (stateKey_injective hk).1, h c v]
      exact ⟨fun hr => absurd hr.1 hc, fun hr => absurd hr.1 hc⟩

theorem oneEntry_of_afterDrop {s : PersistentStorage} {id : MessageId} {old : UInt8}
    {q : PersistedMessage} (h : AfterDrop s id old q.state) (hq : q.id = id.val) :
    OneEntry (s.insertStateIndex q) id q.state := by
  intro c v
  show (s.messagesByState.insert (stateKey q.state ⟨q.id⟩) (toBeBytes q.id)).lookup (stateKey c id)
    = some v ↔ _
  rw [hq]
  by_cases hc : c = q.state
  · subst hc
    rw [AList.lookup_insert, Option.some.injEq]
    exact ⟨fun hv => ⟨rfl, hv.symm⟩, fun hv => hv.2.symm⟩
  · rw [AList.lookup_insert_ne fun hk => hc (stateKey_injective hk).1, h c v]
    exact ⟨fun hr => absurd (hr.1.trans hr.2.1) hc, fun hr => absurd hr.1 hc⟩

theorem recordOf_insertRecord {s : PersistentStorage} {id : MessageId} {q : PersistedMessage}
    (hq : q.id = id.val) : recordOf id (s.insertRecord q) = some q := by
  show (s.messages.insert (msgKey ⟨q.id⟩) q).lookup (msgKey id) = some q
  rw [hq]
  exact AList.lookup_insert _

/-- What the first access does when there is a record. -/
theorem access_start {id : MessageId} {s : PersistentStorage} {c : Call} {q : PersistedMessage}
    (hq : recordOf id s = some q) :
    c.access id s .start =
      some (s, .loaded (.ofCode q.state) (c.f.apply (persistedToStored c.loadClock q))) := by
  simp only [Call.access, loadMessage]
  rw [show s.messages.lookup (msgKey id) = some q from hq]
  rfl

/-- An access never takes the record away. -/
theorem access_record {id : MessageId} {c : Call} {s s' : PersistentStorage} {a a' : Pc}
    (hrec : (recordOf id s).isSome) (hacc : c.access id s a = some (s', a')) :
    (recordOf id s').isSome := by
  cases a with
  | start =>
    obtain ⟨q, hq⟩ := Option.isSome_iff_exists.mp hrec
    rw [access_start hq] at hacc
    cases hacc
    exact hrec
  | loaded old m =>
    cases hacc
    split <;> exact hrec
  | unindexed m =>
    cases hacc
    show ((s.messages.insert (msgKey m.id) (toPersisted c.persistClock m)).lookup (msgKey id)).isSome
    by_cases hk : msgKey id = msgKey m.id
    · rw [hk, AList.lookup_insert]
      rfl
    · rw [AList.lookup_insert_ne hk]
      exact hrec
  | written m =>
    cases hacc
    exact hrec
  | finished found => cases hacc

/-- With a record in place an access moves its call one stage on. -/
theorem access_stage {id : MessageId} {c : Call} {s s' : PersistentStorage} {a a' : Pc}
    (hrec : (recordOf id s).isSome) (hacc : c.access id s a = some (s', a')) :
    a'.stage = a.stage + 1 := by
  cases a with
  | start =>
    obtain ⟨q, hq⟩ := Option.isSome_iff_exists.mp hrec
    rw [access_start hq] at hacc
    cases hacc
    rfl
  | finished found => cases hacc
  | _ => cases hacc; rfl

/-- A call that has not finished has a next access. -/
theorem access_total {id : MessageId} (c : Call) {s : PersistentStorage} {a : Pc}
    (hrec : (recordOf id s).isSome) (hst : a.stage < 4) : ∃ s' a', c.access id s a = some (s', a') := by
  cases a with
  | start =>
    obtain ⟨q, hq⟩ := Option.isSome_iff_exists.mp hrec
    exact ⟨_, _, access_start hq⟩
  | finished found => exact absurd hst (Nat.lt_irrefl 4)
  | _ => exact ⟨_, _, rfl⟩

/-! ## Runs of the two calls -/

/-- A step of the pair is an access of the call it names. -/
theorem Joint.step_eq_some {id : MessageId} {calls : Who → Call} {j j' : Joint} {w : Who} :
    Joint.step id calls j w = some j' ↔
      ∃ s' a', (calls w).access id j.store (j.pc w) = some (s', a') ∧
        j' = ⟨s', Function.update j.pc w a'⟩ := by
  rw [Joint.step, Option.map_eq_some_iff]
  constructor
  · rintro ⟨⟨s', a'⟩, hacc, rfl⟩
    exact ⟨s', a', hacc, rfl⟩
  · rintro ⟨s', a', hacc, rfl⟩
    exact ⟨⟨s', a'⟩, hacc, rfl⟩

/-- The stages of the two calls. -/
def Joint.stages (j : Joint) (w : Who) : Nat := (j.pc w).stage

theorem Joint.step_stages {id : MessageId} {calls : Who → Call} {j j' : Joint} {w : Who}
    (hrec : (recordOf id j.store).isSome) (h : Joint.step id calls j w = some j') :
    (recordOf id j'.store).isSome ∧ j'.stages = Function.update j.stages w (j.stages w + 1) := by
  obtain ⟨s', a', hacc, rfl⟩ := Joint.step_eq_some.mp h
  refine ⟨access_record hrec hacc, ?_⟩
  funext v
  by_cases hv : v = w
  · subst hv
    show (Function.update j.pc v a' v).stage = _
    rw [Function.update_self, Function.update_self]
    exact access_stage hrec hacc
  · show (Function.update j.pc w a' v).stage = _
    rw [Function.update_of_ne hv, Function.update_of_ne hv]
    rfl

/-- A run advances each call by the number of its accesses in the schedule. -/
theorem run_stages {id : MessageId} {calls : Who → Call} {σ : List Who} {j j' : Joint}
    (hrec : (recordOf id j.store).isSome) (hrun : run (Joint.step id calls) j σ = some j') (w : Who) :
    j'.stages w = j.stages w + σ.count w := by
  induction σ generalizing j with
  | nil => cases hrun; rfl
  | cons v σ ih =>
    obtain ⟨t, ht, hrest⟩ := run_cons_eq_some.mp hrun
    obtain ⟨hrec', hst⟩ := Joint.step_stages hrec ht
    rw [ih hrec' hrest, hst]
    by_cases hv : w = v
    · subst hv
      rw [Function.update_self, List.count_cons_self]
      omega
    · rw [Function.update_of_ne hv, List.count_cons_of_ne (Ne.symm hv)]

/-- A schedule that asks no call for more than its four accesses can be run. -/
theorem run_total {id : MessageId} (calls : Who → Call) {σ : List Who} {j : Joint}
    (hrec : (recordOf id j.store).isSome) (hroom : ∀ w, j.stages w + σ.count w ≤ 4) :
    ∃ j', run (Joint.step id calls) j σ = some j' := by
  induction σ generalizing j with
  | nil => exact ⟨j, rfl⟩
  | cons v σ ih =>
    have hv : j.stages v < 4 := by
      have := hroom v
      rw [List.count_cons_self] at this
      omega
    obtain ⟨s', a', hacc⟩ := access_total (calls v) hrec hv
    have hstep := Joint.step_eq_some.mpr ⟨s', a', hacc, rfl⟩
    obtain ⟨hrec', hst⟩ := Joint.step_stages hrec hstep
    obtain ⟨j', hj'⟩ := ih hrec' (j := ⟨s', Function.update j.pc v a'⟩) (fun w => by
      have := hroom w
      rw [hst]
      by_cases hw : w = v
      · subst hw
        rw [Function.update_self]
        rw [List.count_cons_self] at this
        omega
      · rw [Function.update_of_ne hw]
        rwa [List.count_cons_of_ne (Ne.symm hw)] at this)
    exact ⟨j', run_cons_eq_some.mpr ⟨_, hstep, hj'⟩⟩

/-! ## An undisturbed schedule keeps the calls in phase -/

section Phase

variable (id : MessageId) (p : PersistedMessage) (calls : Who → Call)

/-- The record once the first call has written it. -/
def firstRecord (x : Who) : PersistedMessage := (calls x).applied p

/-- The record once the second call has written it. -/
def secondRecord (x : Who) : PersistedMessage := (calls x.other).applied (firstRecord p calls x)

/-- The message the first call holds. -/
def firstMsg (x : Who) : StoredMessage :=
  (calls x).f.apply (persistedToStored (calls x).loadClock p)

/-- The message the second call holds. -/
def secondMsg (x : Who) : StoredMessage :=
  (calls x.other).f.apply (persistedToStored (calls x.other).loadClock (firstRecord p calls x))

/-- The store, when the calls stand where they do and `x` is the first of the two. -/
def Phase (x : Who) (s : PersistentStorage) : Pc → Pc → Prop
  | .start, .start => recordOf id s = some p ∧ OneEntry s id p.state
  | .loaded old m, .start => recordOf id s = some p ∧ OneEntry s id old.code ∧
      old.code = p.state ∧ m = firstMsg p calls x
  | .unindexed m, .start => recordOf id s = some p ∧
      AfterDrop s id p.state (firstRecord p calls x).state ∧ m = firstMsg p calls x
  | .written m, .start => recordOf id s = some (firstRecord p calls x) ∧
      AfterDrop s id p.state (firstRecord p calls x).state ∧ m = firstMsg p calls x
  | .written m, .loaded old m' => recordOf id s = some (firstRecord p calls x) ∧
      AfterDrop s id p.state (firstRecord p calls x).state ∧ m = firstMsg p calls x ∧
      old.code = (firstRecord p calls x).state ∧ m' = secondMsg p calls x
  | .finished _, .start => recordOf id s = some (firstRecord p calls x) ∧
      OneEntry s id (firstRecord p calls x).state
  | .finished _, .loaded old m' => recordOf id s = some (firstRecord p calls x) ∧
      OneEntry s id old.code ∧ old.code = (firstRecord p calls x).state ∧
      m' = secondMsg p calls x
  | .finished _, .unindexed m' => recordOf id s = some (firstRecord p calls x) ∧
      AfterDrop s id (firstRecord p calls x).state (secondRecord p calls x).state ∧
      m' = secondMsg p calls x
  | .finished _, .written m' => recordOf id s = some (secondRecord p calls x) ∧
      AfterDrop s id (firstRecord p calls x).state (secondRecord p calls x).state ∧
      m' = secondMsg p calls x
  | .finished _, .finished _ => recordOf id s = some (secondRecord p calls x) ∧
      OneEntry s id (secondRecord p calls x).state
  | _, _ => False

/-- The message a call that finds record `q` holds after its closure, with the facts its later accesses
    need. -/
theorem applied_id {q : PersistedMessage} (hq : q.id = id.val) (w : Who) :
    ((calls w).applied q).id = id.val := by
  show ((calls w).f.apply (persistedToStored (calls w).loadClock q)).id.val = id.val
  rw [(calls w).f.keepsId]
  exact hq

theorem applied_coded (q : PersistedMessage) (w : Who) :
    (MessageState.ofCode ((calls w).applied q).state).code = ((calls w).applied q).state :=
  congrArg MessageState.code (MessageState.ofCode_code _)

variable {id p calls}

/-- Two calls that have not begun are in phase whichever is called the first. -/
theorem Phase.swap {x : Who} {s : PersistentStorage} (h : Phase id p calls x s .start .start) :
    Phase id p calls x.other s .start .start := h

/-- There is a record all along. -/
theorem Phase.record {x : Who} {s : PersistentStorage} {a b : Pc} (h : Phase id p calls x s a b) :
    ∃ q, recordOf id s = some q := by
  cases a <;> cases b <;> first | exact ⟨_, h.1⟩ | exact h.elim

/-- The first call moves: it is ahead of the second by its record write, so nothing disturbs it. -/
theorem Phase.first {x : Who} {s s' : PersistentStorage} {a a' b : Pc} (hid : p.id = id.val)
    (hcoded : (MessageState.ofCode p.state).code = p.state)
    (h : Phase id p calls x s a b) (hacc : (calls x).access id s a = some (s', a')) :
    Phase id p calls x s' a' b := by
  have hfid := applied_id id calls hid x
  cases a with
  | start =>
    cases b <;> try exact h.elim
    obtain ⟨hrec, hone⟩ := h
    rw [access_start hrec] at hacc
    cases hacc
    exact ⟨hrec, by rw [hcoded]; exact hone, hcoded, rfl⟩
  | loaded old m =>
    cases b <;> try exact h.elim
    obtain ⟨hrec, hone, hold, rfl⟩ := h
    cases hacc
    refine ⟨?_, ?_, rfl⟩
    · split <;> exact hrec
    · rw [← hold]
      exact afterDrop_of_oneEntry hone
  | unindexed m =>
    cases b <;> try exact h.elim
    obtain ⟨hrec, hdrop, rfl⟩ := h
    cases hacc
    exact ⟨recordOf_insertRecord hfid, hdrop, rfl⟩
  | written m =>
    cases b with
    | start =>
      obtain ⟨hrec, hdrop, rfl⟩ := h
      cases hacc
      exact ⟨hrec, oneEntry_of_afterDrop hdrop hfid⟩
    | loaded old m' =>
      obtain ⟨hrec, hdrop, rfl, hold, rfl⟩ := h
      cases hacc
      refine ⟨hrec, ?_, hold, rfl⟩
      rw [hold]
      exact oneEntry_of_afterDrop hdrop hfid
    | _ => exact h.elim
  | finished found => cases hacc

/-- The second call moves, without a clash: it reads what the first has written, and drops its old
    index entry only after the first has inserted it. -/
theorem Phase.second {x : Who} {s s' : PersistentStorage} {a b b' : Pc} (hid : p.id = id.val)
    (hbegun : a.stage ≠ 0) (hclash : ¬ Clash b.stage a.stage) (h : Phase id p calls x s a b)
    (hacc : (calls x.other).access id s b = some (s', b')) : Phase id p calls x s' a b' := by
  have hfid := applied_id id calls (applied_id id calls hid x) x.other
  have hfcoded := applied_coded calls p x
  cases b with
  | start =>
    cases a with
    | start => exact absurd rfl hbegun
    | loaded old m => exact absurd (Or.inl ⟨rfl, Or.inl rfl⟩) hclash
    | unindexed m => exact absurd (Or.inl ⟨rfl, Or.inr rfl⟩) hclash
    | written m =>
      obtain ⟨hrec, hdrop, hm⟩ := h
      rw [access_start hrec] at hacc
      cases hacc
      exact ⟨hrec, hdrop, hm, hfcoded, rfl⟩
    | finished found =>
      obtain ⟨hrec, hone⟩ := h
      rw [access_start hrec] at hacc
      cases hacc
      exact ⟨hrec, by rw [show firstRecord p calls x = (calls x).applied p from rfl, hfcoded]; exact hone,
        hfcoded, rfl⟩
  | loaded old m' =>
    cases a with
    | written m => exact absurd (Or.inr ⟨rfl, rfl⟩) hclash
    | finished found =>
      obtain ⟨hrec, hone, hold, rfl⟩ := h
      cases hacc
      refine ⟨?_, ?_, rfl⟩
      · split <;> exact hrec
      · rw [← hold]
        exact afterDrop_of_oneEntry hone
    | _ => exact h.elim
  | unindexed m' =>
    cases a with
    | finished found =>
      obtain ⟨hrec, hdrop, rfl⟩ := h
      cases hacc
      exact ⟨recordOf_insertRecord hfid, hdrop, rfl⟩
    | _ => exact h.elim
  | written m' =>
    cases a with
    | finished found =>
      obtain ⟨hrec, hdrop, rfl⟩ := h
      cases hacc
      exact ⟨hrec, oneEntry_of_afterDrop hdrop hfid⟩
    | _ => exact h.elim
  | finished found => cases hacc

/-- Every undisturbed step keeps the calls in phase. -/
theorem phase_step {j j' : Joint} {w : Who} (hid : p.id = id.val)
    (hcoded : (MessageState.ofCode p.state).code = p.state)
    (h : ∃ x, Phase id p calls x j.store (j.pc x) (j.pc x.other))
    (hclash : ¬ Clash (j.stages w) (j.stages w.other)) (hstep : Joint.step id calls j w = some j') :
    ∃ x, Phase id p calls x j'.store (j'.pc x) (j'.pc x.other) := by
  obtain ⟨x, hx⟩ := h
  obtain ⟨s', a', hacc, rfl⟩ := Joint.step_eq_some.mp hstep
  rcases Who.eq_or_other w x with rfl | rfl
  · refine ⟨w, ?_⟩
    show Phase id p calls w s' (Function.update j.pc w a' w) (Function.update j.pc w a' w.other)
    rw [Function.update_self, Function.update_of_ne w.other_ne]
    exact hx.first hid hcoded hacc
  · rw [Who.other_other] at hclash
    by_cases hbegun : (j.pc x).stage = 0
    · -- neither call has begun: the one that moves is the first
      have hx0 : j.pc x = .start := by
        cases hp : j.pc x <;> first | rfl | (rw [hp] at hbegun; cases hbegun)
      have hy0 : j.pc x.other = .start := by
        rw [hx0] at hx
        cases hp : j.pc x.other <;> first | rfl | (rw [hp] at hx; exact hx.elim)
      refine ⟨x.other, ?_⟩
      show Phase id p calls x.other s' (Function.update j.pc x.other a' x.other)
        (Function.update j.pc x.other a' x.other.other)
      rw [Function.update_self, Who.other_other, Function.update_of_ne x.other_ne.symm, hx0]
      rw [hx0, hy0] at hx
      rw [hy0] at hacc
      exact hx.swap.first hid hcoded hacc
    · refine ⟨x, ?_⟩
      show Phase id p calls x s' (Function.update j.pc x.other a' x)
        (Function.update j.pc x.other a' x.other)
      rw [Function.update_self, Function.update_of_ne x.other_ne.symm]
      exact hx.second hid hbegun hclash hacc

/-- Every undisturbed schedule keeps the calls in phase. -/
theorem phase_run {σ : List Who} {j j' : Joint} (hid : p.id = id.val)
    (hcoded : (MessageState.ofCode p.state).code = p.state)
    (h : ∃ x, Phase id p calls x j.store (j.pc x) (j.pc x.other))
    (hσ : Undisturbed j.stages σ) (hrun : run (Joint.step id calls) j σ = some j') :
    ∃ x, Phase id p calls x j'.store (j'.pc x) (j'.pc x.other) := by
  induction σ generalizing j with
  | nil => cases hrun; exact h
  | cons w σ ih =>
    obtain ⟨t, ht, hrest⟩ := run_cons_eq_some.mp hrun
    obtain ⟨x, hx⟩ := h
    obtain ⟨q, hq⟩ := hx.record
    have hst := (Joint.step_stages (by rw [hq]; rfl) ht).2
    exact ih (phase_step hid hcoded ⟨x, hx⟩ hσ.1 ht) (by rw [hst]; exact hσ.2) hrest

/-- Once both calls have made their four accesses in phase, the outcome is a serial one. -/
theorem serializable_of_phase {j : Joint}
    (h : ∃ x, Phase id p calls x j.store (j.pc x) (j.pc x.other)) (hdone : ∀ w, j.stages w = 4) :
    Serializable id p calls j.store := by
  have hfin : ∀ w, ∃ found, j.pc w = .finished found := by
    intro w
    have := hdone w
    unfold Joint.stages at this
    cases hp : j.pc w with
    | finished found => exact ⟨found, rfl⟩
    | _ => rw [hp] at this; cases this
  obtain ⟨x, hx⟩ := h
  obtain ⟨b, hb⟩ := hfin x
  obtain ⟨b', hb'⟩ := hfin x.other
  rw [hb, hb'] at hx
  exact ⟨x, hx.1, hx.2⟩

end Phase

/-! ## A disturbed schedule loses an update or leaves an entry behind -/

/-- A disturbed schedule has a first clash. -/
theorem first_clash {σ : List Who} {n : Who → Nat} (h : ¬ Undisturbed n σ) :
    ∃ pre w post, σ = pre ++ w :: post ∧ Undisturbed n pre ∧
      Clash (n w + pre.count w) (n w.other + pre.count w.other) := by
  induction σ generalizing n with
  | nil => exact absurd trivial h
  | cons v σ ih =>
    by_cases hv : Clash (n v) (n v.other)
    · exact ⟨[], v, σ, rfl, trivial, hv⟩
    · have hrest : ¬ Undisturbed (Function.update n v (n v + 1)) σ := fun hσ => h ⟨hv, hσ⟩
      obtain ⟨pre, w, post, rfl, hpre, hclash⟩ := ih hrest
      have hcount : ∀ u, Function.update n v (n v + 1) u + pre.count u = n u + (v :: pre).count u := by
        intro u
        by_cases hu : u = v
        · subst hu
          rw [Function.update_self, List.count_cons_self]
          omega
        · rw [Function.update_of_ne hu, List.count_cons_of_ne (Ne.symm hu)]
      rw [hcount, hcount] at hclash
      exact ⟨v :: pre, w, post, rfl, ⟨hv, hpre⟩, hclash⟩

/-- The message a call holds between its read and its index write. -/
def Pc.held : Pc → Option StoredMessage
  | .loaded _ m | .unindexed m | .written m => some m
  | _ => none

/-- Both calls have read, both of them the record `p`: nothing but `p` and what the calls make of
    `p` can be the record from now on. -/
structure BothRead (id : MessageId) (p : PersistedMessage) (calls : Who → Call) (j : Joint) :
    Prop where
  record : ∀ q, recordOf id j.store = some q → q = p ∨ ∃ w, q = (calls w).applied p
  begun : ∀ w, j.pc w ≠ .start
  held : ∀ w m, (j.pc w).held = some m → toPersisted (calls w).persistClock m = (calls w).applied p

theorem BothRead.step {id : MessageId} {p : PersistedMessage} {calls : Who → Call} {j j' : Joint}
    {w : Who} (h : BothRead id p calls j) (hstep : Joint.step id calls j w = some j') :
    BothRead id p calls j' := by
  obtain ⟨s', a', hacc, rfl⟩ := Joint.step_eq_some.mp hstep
  -- what one access does to the record and to the message its call holds
  have hmove : (∀ q, recordOf id s' = some q → q = p ∨ ∃ w, q = (calls w).applied p) ∧
      a' ≠ .start ∧ ∀ m, a'.held = some m → (j.pc w).held = some m := by
    cases hpc : j.pc w with
    | start => exact absurd hpc (h.begun w)
    | loaded old m =>
      rw [hpc] at hacc
      cases hacc
      exact ⟨by split <;> exact h.record, nofun, fun m' hm' => hm'⟩
    | unindexed m =>
      rw [hpc] at hacc
      cases hacc
      refine ⟨?_, nofun, fun m' hm' => hm'⟩
      intro q hq
      have hm := h.held w m (by rw [hpc]; rfl)
      rw [hm] at hq
      by_cases hk : ((calls w).applied p).id = id.val
      · rw [recordOf_insertRecord hk] at hq
        exact Or.inr ⟨w, (Option.some.inj hq).symm⟩
      · refine h.record q ?_
        have hne : msgKey id ≠ msgKey ⟨((calls w).applied p).id⟩ := fun he =>
          hk (congrArg MessageId.val (msgKey_injective he)).symm
        rw [← hq]
        exact (AList.lookup_insert_ne hne).symm
    | written m =>
      rw [hpc] at hacc
      cases hacc
      exact ⟨h.record, nofun, fun m' hm' => nomatch hm'⟩
    | finished found => rw [hpc] at hacc; cases hacc
  obtain ⟨hrecord, hbegun, hheld⟩ := hmove
  refine ⟨hrecord, fun v => ?_, fun v m hm => ?_⟩
  · show Function.update j.pc w a' v ≠ .start
    by_cases hv : v = w
    · subst hv
      rwa [Function.update_self]
    · rw [Function.update_of_ne hv]
      exact h.begun v
  · change (Function.update j.pc w a' v).held = some m at hm
    by_cases hv : v = w
    · subst hv
      rw [Function.update_self] at hm
      exact h.held v m (hheld m hm)
    · rw [Function.update_of_ne hv] at hm
      exact h.held v m hm

/-- Both calls are past their index removal, with messages of the states `target`; whoever has
    finished has left its entry. -/
def PastDrop (id : MessageId) (target : Who → MessageState) (j : Joint) : Prop :=
  ∀ w, match j.pc w with
    | .unindexed m => m.id = id ∧ m.state = target w
    | .written m => m.id = id ∧ m.state = target w
    | .finished _ => (j.store.messagesByState.lookup (stateKey (target w).code id)).isSome
    | _ => False

/-- An insertion into the index keeps every entry there is. -/
theorem lookup_insertStateIndex_isSome {s : PersistentStorage} {q : PersistedMessage} {k : Key}
    (h : (s.messagesByState.lookup k).isSome) :
    ((s.insertStateIndex q).messagesByState.lookup k).isSome := by
  show ((s.messagesByState.insert (stateKey q.state ⟨q.id⟩) (toBeBytes q.id)).lookup k).isSome
  by_cases hk : k = stateKey q.state ⟨q.id⟩
  · rw [hk, AList.lookup_insert]
    rfl
  · rwa [AList.lookup_insert_ne hk]

theorem PastDrop.step {id : MessageId} {target : Who → MessageState} {calls : Who → Call}
    {j j' : Joint} {w : Who} (h : PastDrop id target j)
    (hstep : Joint.step id calls j w = some j') : PastDrop id target j' := by
  obtain ⟨s', a', hacc, rfl⟩ := Joint.step_eq_some.mp hstep
  have hw := h w
  intro v
  show match Function.update j.pc w a' v with
    | .unindexed m => m.id = id ∧ m.state = target v
    | .written m => m.id = id ∧ m.state = target v
    | .finished _ => (s'.messagesByState.lookup (stateKey (target v).code id)).isSome
    | _ => False
  cases hpc : j.pc w with
  | start => rw [hpc] at hw; exact hw.elim
  | loaded old m => rw [hpc] at hw; exact hw.elim
  | finished found => rw [hpc] at hacc; cases hacc
  | unindexed m =>
    rw [hpc] at hw hacc
    cases hacc
    by_cases hv : v = w
    · subst hv
      rw [Function.update_self]
      exact hw
    · rw [Function.update_of_ne hv]
      exact h v
  | written m =>
    rw [hpc] at hw hacc
    cases hacc
    by_cases hv : v = w
    · subst hv
      rw [Function.update_self]
      obtain ⟨hid, hst⟩ := hw
      show ((j.store.messagesByState.insert (stateKey m.state.code m.id) (toBeBytes m.id.val)).lookup
        (stateKey (target v).code id)).isSome
      rw [hid, hst, AList.lookup_insert]
      rfl
    · rw [Function.update_of_ne hv]
      have hold := h v
      cases hpv : j.pc v with
      | finished found =>
        rw [hpv] at hold
        exact lookup_insertStateIndex_isSome hold
      | _ => rw [hpv] at hold; exact hold

/-! ## The exact condition -/

/-- A store with one message in it, on which every clash can be made to show. -/
def base : PersistentStorage := empty.store ⟨0, 0⟩ (.sample 0)

/-- The record of that message. -/
def baseRecord : PersistedMessage := toPersisted ⟨0, 0⟩ (.sample 0)

/-- A call that counts one attempt more. -/
def increment : Call :=
  ⟨⟨fun m => { m with attempts := m.attempts + 1 }, fun _ => rfl⟩, ⟨0, 0⟩, ⟨0, 0⟩⟩

/-- A call that moves the message to a state. -/
def moveTo (state : MessageState) : Call :=
  ⟨⟨fun m => { m with state := state }, fun _ => rfl⟩, ⟨0, 0⟩, ⟨0, 0⟩⟩

theorem base_record : recordOf ⟨0⟩ base = some baseRecord := recordOf_insertRecord rfl

theorem base_indexed : Indexed base :=
  step_indexed empty (.store ⟨0, 0⟩ (.sample 0)) base indexed_empty rfl

/-- Both calls have read the same record, so one of two increments is lost. -/
theorem lost_increment {j j' : Joint} {σ : List Who}
    (h : BothRead ⟨0⟩ baseRecord (fun _ => increment) j)
    (hrun : run (Joint.step ⟨0⟩ fun _ => increment) j σ = some j') :
    ¬ Serializable ⟨0⟩ baseRecord (fun _ => increment) j'.store := by
  have h' : BothRead ⟨0⟩ baseRecord (fun _ => increment) j' :=
    run_inv (fun _ _ _ hi hs => BothRead.step hi hs) h hrun
  rintro ⟨w, hrec, -⟩
  have hcases := h'.record _ hrec
  have htwice : ∀ q : PersistedMessage, (increment.applied q).attempts = q.attempts + 1 :=
    fun _ => rfl
  rcases hcases with hq | ⟨v, hq⟩
  · have := congrArg PersistedMessage.attempts hq
    rw [htwice, htwice] at this
    revert this
    decide
  · have := congrArg PersistedMessage.attempts hq
    rw [htwice, htwice] at this
    revert this
    decide

/-- Both calls are past their index removal on the way to different states, so both entries stay. -/
theorem stray_entry {id : MessageId} {p : PersistedMessage} {calls : Who → Call} {j : Joint}
    {target : Who → MessageState} (hne : ∀ w, target w ≠ target w.other)
    (h : PastDrop id target j) (hdone : ∀ w, j.stages w = 4) :
    ¬ Serializable id p calls j.store := by
  have hentry : ∀ w, (j.store.messagesByState.lookup (stateKey (target w).code id)).isSome := by
    intro w
    have hw := h w
    have hst := hdone w
    unfold Joint.stages at hst
    cases hpc : j.pc w with
    | finished found => rw [hpc] at hw; exact hw
    | _ => rw [hpc] at hst; cases hst
  rintro ⟨w, -, hone⟩
  have hcode : ∀ v, (target v).code =
      ((calls w.other).applied ((calls w).applied p)).state := by
    intro v
    obtain ⟨e, he⟩ := Option.isSome_iff_exists.mp (hentry v)
    exact ((hone _ e).mp he).1
  exact hne w (MessageState.code_injective ((hcode w).trans (hcode w.other).symm))

/-- The first read that clashes finds the record the other call has read. -/
theorem bothRead_of_clash {id : MessageId} {p : PersistedMessage} {calls : Who → Call}
    {j j' : Joint} {w : Who} (h : ∃ x, Phase id p calls x j.store (j.pc x) (j.pc x.other))
    (hown : j.stages w = 0) (hother : j.stages w.other = 1 ∨ j.stages w.other = 2)
    (hstep : Joint.step id calls j w = some j') : BothRead id p calls j' := by
  unfold Joint.stages at hown hother
  have hw : j.pc w = .start := by
    cases hpc : j.pc w <;> first | rfl | (rw [hpc] at hown; cases hown)
  -- the one that has begun is the first of the phase
  have hphase : Phase id p calls w.other j.store (j.pc w.other) .start := by
    obtain ⟨x, hx⟩ := h
    rcases Who.eq_or_other w x with rfl | rfl
    · rw [hw] at hx
      cases hpc : j.pc w.other with
      | start => rw [hpc] at hother; rcases hother with h | h <;> cases h
      | _ => rw [hpc] at hx; exact hx.elim
    · rw [Who.other_other]
      rwa [hw] at hx
  have hread : recordOf id j.store = some p ∧ j.pc w.other ≠ .start ∧
      ∀ m, (j.pc w.other).held = some m →
        toPersisted (calls w.other).persistClock m = (calls w.other).applied p := by
    cases hpc : j.pc w.other with
    | loaded old m =>
      rw [hpc] at hphase
      obtain ⟨hrec, -, -, rfl⟩ := hphase
      refine ⟨hrec, nofun, fun m' hm' => ?_⟩
      cases hm'
      rfl
    | unindexed m =>
      rw [hpc] at hphase
      obtain ⟨hrec, -, rfl⟩ := hphase
      refine ⟨hrec, nofun, fun m' hm' => ?_⟩
      cases hm'
      rfl
    | _ => rw [hpc] at hother; rcases hother with h | h <;> cases h
  obtain ⟨hrec, hbegun, hheld⟩ := hread
  obtain ⟨s', a', hacc, rfl⟩ := Joint.step_eq_some.mp hstep
  rw [hw, access_start hrec] at hacc
  cases hacc
  refine ⟨fun q hq => Or.inl (Option.some.inj (hq.symm.trans hrec)), fun v => ?_, fun v m hm => ?_⟩
  · show Function.update j.pc w _ v ≠ .start
    rcases Who.eq_or_other v w with rfl | rfl
    · rw [Function.update_self]
      nofun
    · rwa [Function.update_of_ne w.other_ne]
  · change (Function.update j.pc w _ v).held = some m at hm
    rcases Who.eq_or_other v w with rfl | rfl
    · rw [Function.update_self] at hm
      cases hm
      rfl
    · rw [Function.update_of_ne w.other_ne] at hm
      exact hheld m hm

/-- The first index removal that clashes comes when both messages are made and both old entries are
    gone. -/
theorem pastDrop_of_clash {id : MessageId} {p : PersistedMessage} {calls : Who → Call}
    {j j' : Joint} {w : Who} (target : Who → MessageState) (hid : p.id = id.val)
    (htarget : ∀ v m, ((calls v).f.apply m).state = target v)
    (h : ∃ x, Phase id p calls x j.store (j.pc x) (j.pc x.other))
    (hown : j.stages w = 1) (hother : j.stages w.other = 3)
    (hstep : Joint.step id calls j w = some j') : PastDrop id target j' := by
  unfold Joint.stages at hown hother
  obtain ⟨old, m, hw⟩ : ∃ old m, j.pc w = .loaded old m := by
    cases hpc : j.pc w with
    | loaded old m => exact ⟨old, m, rfl⟩
    | _ => rw [hpc] at hown; cases hown
  obtain ⟨m', ho⟩ : ∃ m', j.pc w.other = .written m' := by
    cases hpc : j.pc w.other with
    | written m' => exact ⟨m', rfl⟩
    | _ => rw [hpc] at hother; cases hother
  have hphase : Phase id p calls w.other j.store (.written m') (.loaded old m) := by
    obtain ⟨x, hx⟩ := h
    rcases Who.eq_or_other w x with rfl | rfl
    · rw [hw, ho] at hx
      exact hx.elim
    · rw [Who.other_other] at ho ⊢
      rwa [hw, ho] at hx
  obtain ⟨-, -, rfl, -, rfl⟩ := hphase
  obtain ⟨s', a', hacc, rfl⟩ := Joint.step_eq_some.mp hstep
  rw [hw] at hacc
  cases hacc
  have hfirst : (firstMsg p calls w.other).id = id :=
    (((calls w.other).f.keepsId _).trans rfl).trans (congrArg MessageId.mk hid)
  have hsecond : (secondMsg p calls w.other).id = id :=
    ((calls w.other.other).f.keepsId _).trans
      (congrArg MessageId.mk (applied_id id calls hid w.other))
  intro v
  rcases Who.eq_or_other v w with rfl | rfl
  · show match Function.update j.pc v _ v with
      | .unindexed m => m.id = id ∧ m.state = target v
      | .written m => m.id = id ∧ m.state = target v
      | .finished _ => _
      | _ => False
    rw [Function.update_self]
    refine ⟨hsecond, ?_⟩
    have := htarget v.other.other
      (persistedToStored (calls v.other.other).loadClock (firstRecord p calls v.other))
    rw [Who.other_other] at this
    unfold secondMsg
    rw [Who.other_other]
    exact this
  · show match Function.update j.pc w _ w.other with
      | .unindexed m => m.id = id ∧ m.state = target w.other
      | .written m => m.id = id ∧ m.state = target w.other
      | .finished _ => _
      | _ => False
    rw [Function.update_of_ne w.other_ne, ho]
    exact ⟨hfirst, htarget _ _⟩

/-- The stored message, and the index entry it has, before either call begins. -/
theorem phase_begin {s : PersistentStorage} {id : MessageId} {p : PersistedMessage}
    (calls : Who → Call) (h : Indexed s) (hp : s.messages.lookup (msgKey id) = some p) :
    ∃ x, Phase id p calls x (Joint.begin s).store ((Joint.begin s).pc x)
      ((Joint.begin s).pc x.other) :=
  ⟨.f, hp, h.oneEntry hp⟩

/-- A run of a schedule cut at its first clash: up to there the calls are in phase. -/
theorem run_to_clash (pre : List Who) (w : Who) (post : List Who) (calls : Who → Call)
    (hcount : ∀ v, (pre ++ w :: post).count v = 4) (hpre : Undisturbed (fun _ => 0) pre) :
    ∃ j₁ j₂ j, (∃ x, Phase ⟨0⟩ baseRecord calls x j₁.store (j₁.pc x) (j₁.pc x.other)) ∧
      (∀ v, j₁.stages v = pre.count v) ∧ Joint.step ⟨0⟩ calls j₁ w = some j₂ ∧
      run (Joint.step ⟨0⟩ calls) j₂ post = some j ∧ (∀ v, j.stages v = 4) ∧
      run (Joint.step ⟨0⟩ calls) (Joint.begin base) (pre ++ w :: post) = some j := by
  have hrec : (recordOf ⟨0⟩ (Joint.begin base).store).isSome := by
    show (recordOf ⟨0⟩ base).isSome
    rw [base_record]
    rfl
  have hzero : ∀ v, (Joint.begin base).stages v = 0 := fun _ => rfl
  obtain ⟨j, hj⟩ := run_total calls hrec fun v => by rw [hzero, hcount]
  have hsplit := hj
  rw [run_append, Option.bind_eq_some_iff] at hsplit
  obtain ⟨j₁, hj₁, hrest⟩ := hsplit
  obtain ⟨j₂, hstep, hpost⟩ := run_cons_eq_some.mp hrest
  have hphase := phase_run rfl rfl (phase_begin calls base_indexed base_record) hpre hj₁
  refine ⟨j₁, j₂, j, hphase, fun v => ?_, hstep, hpost, fun v => ?_, hj⟩
  · rw [run_stages hrec hj₁, hzero, Nat.zero_add]
  · rw [run_stages hrec hj, hzero, hcount]

/-- Every disturbed schedule has calls it does not serialize. -/
theorem disturbed_not_serializable {σ : List Who} (hcount : ∀ v, σ.count v = 4)
    (h : ¬ Undisturbed (fun _ => 0) σ) :
    ∃ calls j, run (Joint.step ⟨0⟩ calls) (Joint.begin base) σ = some j ∧
      ¬ Serializable ⟨0⟩ baseRecord calls j.store := by
  obtain ⟨pre, w, post, rfl, hpre, hclash⟩ := first_clash h
  rw [Nat.zero_add, Nat.zero_add] at hclash
  rcases hclash with ⟨hown, hother⟩ | ⟨hown, hother⟩
  · obtain ⟨j₁, j₂, j, hphase, hst, hstep, hpost, -, hj⟩ :=
      run_to_clash pre w post (fun _ => increment) hcount hpre
    rw [← hst] at hown hother
    exact ⟨_, j, hj, lost_increment (bothRead_of_clash hphase hown hother hstep) hpost⟩
  · -- the call that clashes moves the message to `Delivered`, the other one to `InFlight`
    let target : Who → MessageState := fun v => if v = w then .delivered else .inFlight
    have hne : ∀ v, target v ≠ target v.other := by
      intro v
      show (if v = w then MessageState.delivered else .inFlight)
        ≠ if v.other = w then .delivered else .inFlight
      rcases Who.eq_or_other v w with rfl | rfl
      · rw [if_pos rfl, if_neg v.other_ne]
        decide
      · rw [if_neg w.other_ne, if_pos w.other_other]
        decide
    obtain ⟨j₁, j₂, j, hphase, hst, hstep, hpost, hdone, hj⟩ :=
      run_to_clash pre w post (fun v => moveTo (target v)) hcount hpre
    rw [← hst] at hown hother
    have hpast := pastDrop_of_clash target rfl (fun _ _ => rfl) hphase hown hother hstep
    have hpast' : PastDrop ⟨0⟩ target j := run_inv (fun _ _ _ hi hs => PastDrop.step hi hs) hpast hpost
    exact ⟨_, j, hj, stray_entry hne hpast' hdone⟩

/-- **Two concurrent updates are serializable under exactly the undisturbed schedules**: on every
    store the operations can build, every message in it and every two calls. -/
theorem serializable_iff_undisturbed (σ : List Who) (hf : σ.count .f = 4) (hg : σ.count .g = 4) :
    (∀ ops s, run step empty ops = some s →
      ∀ id p, s.messages.lookup (msgKey id) = some p → ∀ calls : Who → Call,
        ∃ j, run (Joint.step id calls) (Joint.begin s) σ = some j ∧
          Serializable id p calls j.store) ↔
      Undisturbed (fun _ => 0) σ := by
  have hcount : ∀ w, σ.count w = 4 := by
    intro w
    cases w
    · exact hf
    · exact hg
  constructor
  · intro hall
    by_contra hσ
    obtain ⟨calls, j, hj, hnot⟩ := disturbed_not_serializable hcount hσ
    obtain ⟨j', hj', hser⟩ :=
      hall [.store ⟨0, 0⟩ (.sample 0)] base rfl ⟨0⟩ baseRecord base_record calls
    obtain rfl : j = j' := Option.some.inj (hj.symm.trans hj')
    exact hnot hser
  · intro hσ ops s hrun id p hp calls
    have hix := run_indexed hrun
    have hid : p.id = id.val := (congrArg MessageId.val (msgKey_injective (hix.keyed _ p hp))).symm
    have hrec : (recordOf id (Joint.begin s).store).isSome := by
      show (s.messages.lookup (msgKey id)).isSome
      rw [hp]
      rfl
    obtain ⟨j, hj⟩ := run_total calls hrec fun v => by
      show 0 + _ ≤ 4
      rw [hcount]
    refine ⟨j, hj, serializable_of_phase
      (phase_run hid (hix.coded _ p hp) (phase_begin calls hix hp) hσ hj) fun w => ?_⟩
    rw [run_stages hrec hj, hcount]
    rfl

/-- One call after the other. -/
def serial : List Who := [.f, .f, .f, .f, .g, .g, .g, .g]

/-- The two calls taking turns. -/
def alternating : List Who := [.f, .g, .f, .g, .f, .g, .f, .g]

theorem serial_undisturbed : Undisturbed (fun _ => 0) serial := by
  simp [serial, Undisturbed, Clash, Who.other]

/-- Two increments in a row count to two. -/
theorem serializable_serial :
    ∃ j, run (Joint.step ⟨0⟩ fun _ => increment) (Joint.begin base) serial = some j ∧
      Serializable ⟨0⟩ baseRecord (fun _ => increment) j.store :=
  (serializable_iff_undisturbed serial rfl rfl).mpr serial_undisturbed
    [.store ⟨0, 0⟩ (.sample 0)] base rfl ⟨0⟩ baseRecord base_record _

/-- Two increments taking turns count to one. -/
theorem alternating_not_serializable :
    ∃ j, run (Joint.step ⟨0⟩ fun _ => increment) (Joint.begin base) alternating = some j ∧
      ¬ Serializable ⟨0⟩ baseRecord (fun _ => increment) j.store := by
  obtain ⟨j₁, j₂, j, hphase, hst, hstep, hpost, -, hj⟩ :=
    run_to_clash [.f] .g [.f, .g, .f, .g, .f, .g] (fun _ => increment)
      (fun v => by cases v <;> rfl) ⟨by decide, trivial⟩
  have hread := bothRead_of_clash hphase (hst .g) (Or.inl (hst .f)) hstep
  exact ⟨j, hj, lost_increment hread hpost⟩

end Smppd.Store.PersistentStorage
