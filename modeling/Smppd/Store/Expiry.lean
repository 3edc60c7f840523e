/-
  EXPIRY: `expire_old` against what it is for, in both back ends.

  A message is due when it is not terminal and was created more than the ttl ago.  The in-memory back end
  asks just that, of the monotonic clock, if the clock reaches back that far: where `now - ttl` is no
  `Instant` the call panics and returns no number at all.  The persistent one walks its records with the wall clock, in
  whole milliseconds, and only looks at those in state `Pending`: it moves what is due exactly when nothing
  in flight or waiting for a retry is due, and the milliseconds tell the pending messages apart
  (`ExpiresDue`).

  The walk is one lookup equation (`Covered.get_expireOld`): a record is rewritten when it is overdue, by
  itself, whatever else the walk does.
-/
import Smppd.Store.Contents

set_option linter.unusedVariables false

namespace Smppd.Store

open Table Machine

/-! ## What an expiry pass is for -/

/-- The message is not terminal and older than the ttl. -/
def due (age : StoredMessage → Int) (ttl : Duration) (m : StoredMessage) : Bool :=
  !m.state.isTerminal && decide ((ttl : Int) < age m)

/-- A pass that turns `before` into `after` and reports `count` has expired what is due, and nothing else. -/
structure ExpiryAnswer (due : StoredMessage → Bool) (content : List StoredMessage)
    (before after : MessageId → Option StoredMessage) (count : Nat) : Prop where
  moved : ∀ id m, before id = some m → due m = true → ∃ m', after id = some m' ∧ m'.state = .expired
  kept : ∀ id m, before id = some m → due m = false → after id = some m
  absent : ∀ id, before id = none → after id = none
  counted : count = content.countP due

/-! ## The in-memory back end -/

namespace MemoryStorage

theorem overdue_eq (clock : Clock) (ttl : Duration) (m : StoredMessage) :
    overdue clock ttl m = due (fun m => clock.now - m.createdAt) ttl m := by
  unfold overdue due
  have hage : decide (m.createdAt < clock.now - ttl) = decide ((ttl : Int) < clock.now - m.createdAt) :=
    decide_eq_decide.mpr lt_sub_comm
  rw [hage]

theorem expireOld_answer (clock : Clock) (ttl : Duration) (s : MemoryStorage) :
    ExpiryAnswer (due (fun m => clock.now - m.createdAt) ttl) s.contents (fun id => s.get id)
      (fun id => (s.expireOld clock ttl).1.get id) (s.expireOld clock ttl).2 where
  moved := by
    intro id m hget hdue
    refine ⟨m.markExpired clock, ?_, rfl⟩
    rw [get_expireOld, hget, Option.map_some, expireOne, overdue_eq, if_pos hdue]
  kept := by
    intro id m hget hdue
    rw [get_expireOld, hget, Option.map_some, expireOne, overdue_eq, if_neg (by rw [hdue]; exact Bool.false_ne_true)]
  absent := by
    intro id hget
    rw [get_expireOld, hget, Option.map_none]
  counted := by
    rw [contents, List.countP_map]
    exact List.countP_congr fun e _ => by rw [overdue_eq]; rfl

end MemoryStorage

/-! ## The persistent back end -/

namespace PersistentStorage

/-! ### The walk -/

/-- What the walk writes over a record that is overdue. -/
def expiredRecord (clock : Clock) (p : PersistedMessage) : PersistedMessage :=
  toPersisted clock ((persistedToStored clock p).markExpired clock)

theorem lookup_expireRecord (clock : Clock) (ttl : Duration) (s : PersistentStorage) (p : PersistedMessage)
    (key : Key) :
    (s.expireRecord clock ttl p).messages.lookup key =
      if key = msgKey ⟨p.id⟩ ∧ overdue clock ttl p = true then some (expiredRecord clock p)
      else s.messages.lookup key := by
  unfold expireRecord
  by_cases hdue : overdue clock ttl p = true
  · rw [if_pos hdue]
    show (s.messages.insert (msgKey ⟨p.id⟩) (expiredRecord clock p)).lookup key = _
    by_cases hkey : key = msgKey ⟨p.id⟩
    · rw [if_pos ⟨hkey, hdue⟩, hkey, AList.lookup_insert]
    · rw [if_neg fun h => hkey h.1, AList.lookup_insert_ne hkey]
  · rw [if_neg hdue, if_neg fun h => hdue h.2]

/-- The walk over a snapshot, by induction on what is left of it: each record is rewritten by itself. -/
theorem lookup_expireWalk (clock : Clock) (ttl : Duration)
    (rest : List (Sigma fun _ : Key => PersistedMessage)) (s : PersistentStorage)
    (hkeyed : ∀ e ∈ rest, e.1 = msgKey ⟨e.2.id⟩) (hahead : Ahead s rest) :
    (∀ key, key ∉ rest.map Sigma.fst →
      (rest.foldl (fun s e => s.expireRecord clock ttl e.2) s).messages.lookup key = s.messages.lookup key) ∧
    ∀ e ∈ rest, (rest.foldl (fun s e => s.expireRecord clock ttl e.2) s).messages.lookup e.1 =
      some (if overdue clock ttl e.2 = true then expiredRecord clock e.2 else e.2) := by
  induction rest generalizing s with
  | nil => exact ⟨fun _ _ => rfl, fun e he => absurd he List.not_mem_nil⟩
  | cons e rest ih =>
    have hfirst := lookup_expireRecord clock ttl s e.2
    rw [← hkeyed e List.mem_cons_self] at hfirst
    have hother : ∀ key, key ≠ e.1 →
        (s.expireRecord clock ttl e.2).messages.lookup key = s.messages.lookup key := by
      intro key hne
      rw [hfirst, if_neg fun h => hne h.1]
    obtain ⟨hout, hin⟩ := ih (s.expireRecord clock ttl e.2) (fun e' he' => hkeyed e' (List.mem_cons_of_mem e he'))
      (hahead.tail hother)
    have hnotin : e.1 ∉ rest.map Sigma.fst := (List.nodup_cons.mp hahead.1).1
    constructor
    · intro key hkey
      rw [List.map_cons, List.mem_cons, not_or] at hkey
      exact (hout key hkey.2).trans (hother key hkey.1)
    · intro e' he'
      rcases List.mem_cons.mp he' with rfl | hlater
      · refine (hout e'.1 hnotin).trans ?_
        rw [hfirst, hahead.2 e' List.mem_cons_self]
        by_cases hdue : overdue clock ttl e'.2 = true
        · rw [if_pos ⟨rfl, hdue⟩, if_pos hdue]
        · rw [if_neg fun h => hdue h.2, if_neg hdue]
      · exact hin e' hlater

theorem Covered.lookup_expireOld {s : PersistentStorage} (h : Covered s) (clock : Clock) (ttl : Duration)
    (key : Key) :
    (s.expireOld clock ttl).1.messages.lookup key = (s.messages.lookup key).map fun p =>
      if overdue clock ttl p = true then expiredRecord clock p else p := by
  obtain ⟨hout, hin⟩ := lookup_expireWalk clock ttl s.messages.iter s
    (fun e he => h.keyed _ _ (Partition.mem_iter.mp he)) (ahead_iter s)
  cases hl : s.messages.lookup key with
  | none =>
    refine (hout key fun hmem => ?_).trans hl
    obtain ⟨e, he, rfl⟩ := List.mem_map.mp hmem
    have hstored := Partition.mem_iter.mp he
    rw [hl] at hstored
    cases hstored
  | some p => exact hin ⟨key, p⟩ (Partition.mem_iter.mpr hl)

theorem get_of_lookup {s : PersistentStorage} {p : PersistedMessage}
    (hp : s.messages.lookup (msgKey ⟨p.id⟩) = some p) (clock : Clock) :
    s.get clock ⟨p.id⟩ = some (persistedToStored clock p) :=
  Option.map_eq_some_iff.mpr ⟨p, hp, rfl⟩

/-- What `get` finds is a record read at that moment. -/
theorem Covered.exists_record {s : PersistentStorage} (h : Covered s) {clock : Clock} {id : MessageId}
    {m : StoredMessage} (hget : s.get clock id = some m) :
    ∃ p, s.messages.lookup (msgKey ⟨p.id⟩) = some p ∧ id = ⟨p.id⟩ ∧ m = persistedToStored clock p := by
  obtain ⟨hm, rfl⟩ := h.get_eq_some_iff.mp hget
  obtain ⟨p, hp, rfl⟩ := h.mem_contents.mp hm
  exact ⟨p, hp, rfl, rfl⟩

/-- **The walk**, as the callers see it. -/
theorem Covered.get_expireOld {s : PersistentStorage} (h : Covered s) {p : PersistedMessage}
    (hp : s.messages.lookup (msgKey ⟨p.id⟩) = some p) (clock clock' : Clock) (ttl : Duration) :
    (s.expireOld clock ttl).1.get clock' ⟨p.id⟩ = some (persistedToStored clock'
      (if overdue clock ttl p = true then expiredRecord clock p else p)) := by
  refine Option.map_eq_some_iff.mpr ⟨_, ?_, rfl⟩
  rw [h.lookup_expireOld, hp]
  rfl

/-! ### Whole milliseconds -/

/-- How old the message is in whole milliseconds of the wall clock, as the walk computes it. -/
def ageMillis (clock : Clock) (m : StoredMessage) : Nat :=
  (epochMs clock.wall).toNat - (epochMs m.createdTime).toNat

/-- The ttl in whole milliseconds, as the walk computes it. -/
def ttlMillis (ttl : Duration) : Nat := (UInt64.ofNat (asMillis ttl)).toNat

@[simp] theorem epochMs_fromMillis (n : UInt64) : epochMs (fromMillis n.toNat) = n := by
  have hmillis : asMillis (fromMillis n.toNat) = n.toNat := Nat.mul_div_cancel _ (by decide)
  unfold epochMs
  rw [Int.toNat_natCast, hmillis, UInt64.ofNat_toNat]

theorem Covered.overdue_iff {s : PersistentStorage} (h : Covered s) {key : Key} {p : PersistedMessage}
    (hp : s.messages.lookup key = some p) (clock clock' : Clock) (ttl : Duration) :
    overdue clock ttl p = true ↔ (persistedToStored clock' p).state = .pending ∧
      ttlMillis ttl < ageMillis clock (persistedToStored clock' p) := by
  have hstate : p.state = MessageState.pending.code ↔ (persistedToStored clock' p).state = .pending := by
    constructor
    · intro hcode
      show MessageState.ofCode p.state = .pending
      rw [hcode, MessageState.ofCode_code]
    · intro hpending
      rw [← h.coded key p hp]
      exact congrArg MessageState.code hpending
  have hage : ageMillis clock (persistedToStored clock' p) = (epochMs clock.wall).toNat - p.createdAtEpochMs.toNat := by
    show (epochMs clock.wall).toNat - (epochMs (fromMillis p.createdAtEpochMs.toNat)).toNat = _
    rw [epochMs_fromMillis]
  rw [overdue, Bool.and_eq_true, decide_eq_true_eq, decide_eq_true_eq, hstate, hage]
  exact Iff.rfl

/-! ### When the pass expires what is due -/

/-- The age of a message by the wall clock. -/
def age (clock : Clock) (m : StoredMessage) : Int := clock.wall - m.createdTime

/-- What the walk does not look at is not due, and of what it looks at the milliseconds tell. -/
structure ExpiresDue (clock : Clock) (ttl : Duration) (s : PersistentStorage) : Prop where
  others : ∀ m ∈ s.contents clock, m.state = .inFlight ∨ m.state = .retrying → ¬ (ttl : Int) < age clock m
  pending : ∀ m ∈ s.contents clock, m.state = .pending →
    (ttlMillis ttl < ageMillis clock m ↔ (ttl : Int) < age clock m)

/-- Where it is so, the walk takes exactly what is due. -/
theorem ExpiresDue.overdue_eq {s : PersistentStorage} {clock : Clock} {ttl : Duration} (h : ExpiresDue clock ttl s)
    (hcovered : Covered s) {p : PersistedMessage} (hp : s.messages.lookup (msgKey ⟨p.id⟩) = some p)
    (clock' : Clock) : overdue clock ttl p = due (age clock) ttl (persistedToStored clock' p) := by
  have hmem : persistedToStored clock p ∈ s.contents clock := hcovered.mem_contents.mpr ⟨p, hp, rfl⟩
  rw [Bool.eq_iff_iff, hcovered.overdue_iff hp clock clock', due, Bool.and_eq_true, decide_eq_true_eq]
  constructor
  · rintro ⟨hpending, hover⟩
    rw [hpending]
    exact ⟨rfl, (h.pending _ hmem hpending).mp hover⟩
  · rintro ⟨hlive, hage⟩
    cases hstate : (persistedToStored clock' p).state with
    | pending => exact ⟨rfl, (h.pending _ hmem hstate).mpr hage⟩
    | inFlight => exact absurd hage (h.others (persistedToStored clock p) hmem (Or.inl hstate))
    | retrying => exact absurd hage (h.others (persistedToStored clock p) hmem (Or.inr hstate))
    | delivered => rw [hstate] at hlive; cases hlive
    | failed => rw [hstate] at hlive; cases hlive
    | expired => rw [hstate] at hlive; cases hlive

theorem expired_expiredRecord (clock clock' : Clock) (p : PersistedMessage) :
    (persistedToStored clock' (expiredRecord clock p)).state = .expired :=
  MessageState.ofCode_code .expired

/-- A pass that expires what is due finds it among the pending messages, by whole milliseconds. -/
theorem pending_of_answer {s : PersistentStorage} (h : Covered s) {clock clock' : Clock} {ttl : Duration}
    {count : Nat}
    (hans : ExpiryAnswer (due (age clock) ttl) (s.contents clock) (fun id => s.get clock' id)
      (fun id => (s.expireOld clock ttl).1.get clock' id) count)
    {m : StoredMessage} (hm : m ∈ s.contents clock) (hdue : due (age clock) ttl m = true) :
    m.state = .pending ∧ ttlMillis ttl < ageMillis clock m := by
  obtain ⟨p, hp, rfl⟩ := h.mem_contents.mp hm
  obtain ⟨m', hm', hst⟩ := hans.moved _ _ (get_of_lookup hp clock') hdue
  rw [h.get_expireOld hp] at hm'
  by_contra hnot
  rw [if_neg fun hdue => hnot ((h.overdue_iff hp clock clock ttl).mp hdue)] at hm'
  -- it would still be in a state that is not terminal
  obtain rfl := Option.some.inj hm'
  rw [due, show (persistedToStored clock p).state = .expired from hst] at hdue
  cases hdue

theorem expiresDue_of_answer {s : PersistentStorage} (h : Covered s) {clock clock' : Clock} {ttl : Duration}
    {count : Nat}
    (hans : ExpiryAnswer (due (age clock) ttl) (s.contents clock) (fun id => s.get clock' id)
      (fun id => (s.expireOld clock ttl).1.get clock' id) count) : ExpiresDue clock ttl s where
  others := by
    intro m hm hst hage
    have hdue : due (age clock) ttl m = true := by
      rw [due, decide_eq_true hage]
      rcases hst with hst | hst <;> rw [hst] <;> rfl
    have hpending := (pending_of_answer h hans hm hdue).1
    rcases hst with hst | hst <;> rw [hst] at hpending <;> cases hpending
  pending := by
    intro m hm hst
    constructor
    · intro hmillis
      obtain ⟨p, hp, rfl⟩ := h.mem_contents.mp hm
      by_contra hage
      have hdue : due (age clock) ttl (persistedToStored clock' p) = false := by
        rw [due, decide_eq_false (show ¬ (ttl : Int) < age clock (persistedToStored clock' p) from hage),
          Bool.and_false]
      have hkept := hans.kept _ _ (get_of_lookup hp clock') hdue
      rw [h.get_expireOld hp, if_pos ((h.overdue_iff hp clock clock ttl).mpr ⟨hst, hmillis⟩)] at hkept
      have hstate := expired_expiredRecord clock clock' p
      rw [Option.some.inj hkept, show (persistedToStored clock' p).state = .pending from hst] at hstate
      cases hstate
    · intro hage
      refine (pending_of_answer h hans hm ?_).2
      rw [due, decide_eq_true hage, hst]
      rfl

theorem ExpiresDue.answer {s : PersistentStorage} {clock : Clock} {ttl : Duration} (hdue : ExpiresDue clock ttl s)
    (h : Covered s) (clock' : Clock) :
    ExpiryAnswer (due (age clock) ttl) (s.contents clock) (fun id => s.get clock' id)
      (fun id => (s.expireOld clock ttl).1.get clock' id) (s.expireOld clock ttl).2 where
  moved := by
    intro id m hget hd
    obtain ⟨p, hp, rfl, rfl⟩ := h.exists_record hget
    rw [← hdue.overdue_eq h hp clock'] at hd
    refine ⟨_, (h.get_expireOld hp clock clock' ttl).trans ?_, expired_expiredRecord clock clock' p⟩
    rw [if_pos hd]
  kept := by
    intro id m hget hd
    obtain ⟨p, hp, rfl, rfl⟩ := h.exists_record hget
    rw [← hdue.overdue_eq h hp clock'] at hd
    refine (h.get_expireOld hp clock clock' ttl).trans ?_
    rw [if_neg (by rw [hd]; exact Bool.false_ne_true)]
  absent := by
    intro id hget
    show ((s.expireOld clock ttl).1.messages.lookup (msgKey id)).map _ = none
    rw [h.lookup_expireOld, Option.map_eq_none_iff.mp hget]
    rfl
  counted := by
    show s.messages.iter.countP (fun e => overdue clock ttl e.2) = _
    rw [contents, List.countP_map]
    refine List.countP_congr fun e he => ?_
    have hlookup := Partition.mem_iter.mp he
    rw [h.keyed _ _ hlookup] at hlookup
    rw [hdue.overdue_eq h hlookup clock]
    rfl

theorem expireOld_answer_iff {s : PersistentStorage} (h : Covered s) (clock clock' : Clock) (ttl : Duration) :
    ExpiryAnswer (due (age clock) ttl) (s.contents clock) (fun id => s.get clock' id)
        (fun id => (s.expireOld clock ttl).1.get clock' id) (s.expireOld clock ttl).2 ↔
      ExpiresDue clock ttl s :=
  ⟨fun hans => expiresDue_of_answer h hans, fun hdue => hdue.answer h clock'⟩

end PersistentStorage

namespace MemoryStorage

/-- The call returns, and what it returns is the answer, where the clock reaches back a whole ttl. -/
theorem tryExpireOld_answer_iff (clock : Clock) (ttl : Duration) (s : MemoryStorage) :
    (∃ after count, s.tryExpireOld clock ttl = some (after, count) ∧
        ExpiryAnswer (due (fun m => clock.now - m.createdAt) ttl) s.contents (fun id => s.get id)
          (fun id => after.get id) count) ↔
      earliestInstant ≤ clock.now - ttl := by
  unfold tryExpireOld instantSub
  by_cases hreach : earliestInstant ≤ clock.now - ttl
  · rw [if_pos hreach]
    exact iff_of_true ⟨_, _, rfl, expireOld_answer clock ttl s⟩ hreach
  · rw [if_neg hreach]
    refine iff_of_false ?_ hreach
    rintro ⟨after, count, hpanic, -⟩
    cases hpanic

end MemoryStorage

/-- **Expiry.**  A pass of either back end, of the in-memory one from any state at all and of the persistent
    one after any sequence of operations, expires exactly what is due when the monotonic clock reaches back a
    whole ttl, in the persistent one nothing in flight or retrying is due, and whole milliseconds tell which
    pending messages are. -/
theorem expire_old_iff (memory : MemoryStorage) {diskOps : List PersistentStorage.Op} {disk : PersistentStorage}
    (hdisk : run PersistentStorage.performing .empty diskOps = some disk) (clock clock' : Clock) (ttl : Duration) :
    (∃ after count, memory.tryExpireOld clock ttl = some (after, count) ∧
          ExpiryAnswer (due (fun m => clock.now - m.createdAt) ttl) memory.contents (fun id => memory.get id)
            (fun id => after.get id) count) ∧
        ExpiryAnswer (due (PersistentStorage.age clock) ttl) (disk.contents clock) (fun id => disk.get clock' id)
          (fun id => (disk.expireOld clock ttl).1.get clock' id) (disk.expireOld clock ttl).2 ↔
      earliestInstant ≤ clock.now - ttl ∧ PersistentStorage.ExpiresDue clock ttl disk :=
  and_congr (MemoryStorage.tryExpireOld_answer_iff clock ttl memory)
    (PersistentStorage.expireOld_answer_iff (PersistentStorage.run_covered hdisk) clock clock' ttl)

/-- A message in flight in each back end, and a pass a second later. -/
theorem expire_old_in_flight :
    let sent := (StoredMessage.sample 0).markInFlight ⟨0, 0⟩ "smsc" "smsc-1"
    let memory := (MemoryStorage.withConfig ⟨1000000, 512, 10⟩).store .listed sent
    let disk := PersistentStorage.empty.store ⟨0, 0⟩ sent
    let later : Clock := ⟨1000000000, 1000000000⟩
    (∃ after count, memory.tryExpireOld later 0 = some (after, count) ∧
          ExpiryAnswer (due (fun m => later.now - m.createdAt) 0) memory.contents (fun id => memory.get id)
            (fun id => after.get id) count) ∧
        ExpiryAnswer (due (PersistentStorage.age later) 0) (disk.contents later) (fun id => disk.get later id)
          (fun id => (disk.expireOld later 0).1.get later id) (disk.expireOld later 0).2 ↔
      earliestInstant ≤ later.now - (0 : Duration) ∧ PersistentStorage.ExpiresDue later 0 disk := by
  intro sent memory disk later
  have hdisk : run PersistentStorage.performing .empty [.store ⟨0, 0⟩ sent] = some disk := rfl
  exact expire_old_iff memory hdisk later later 0

/-- The persistent store leaves it in flight, however old. -/
theorem expire_old_misses_in_flight :
    let sent := (StoredMessage.sample 0).markInFlight ⟨0, 0⟩ "smsc" "smsc-1"
    let disk := PersistentStorage.empty.store ⟨0, 0⟩ sent
    let later : Clock := ⟨1000000000, 1000000000⟩
    run PersistentStorage.performing .empty [.store ⟨0, 0⟩ sent] = some disk ∧
      ¬ ExpiryAnswer (due (PersistentStorage.age later) 0) (disk.contents later) (fun id => disk.get later id)
        (fun id => (disk.expireOld later 0).1.get later id) (disk.expireOld later 0).2 := by
  intro sent disk later
  have hrun : run PersistentStorage.performing .empty [.store ⟨0, 0⟩ sent] = some disk := rfl
  refine ⟨hrun, fun hans => ?_⟩
  have hcovered := PersistentStorage.run_covered hrun
  have hmem : persistedToStored later (toPersisted ⟨0, 0⟩ sent) ∈ disk.contents later :=
    hcovered.mem_contents.mpr ⟨_, AList.lookup_insert _, rfl⟩
  have hdue := (PersistentStorage.expireOld_answer_iff hcovered later later 0).mp hans
  exact hdue.others _ hmem (Or.inl (MessageState.ofCode_code .inFlight)) (by decide)

end Smppd.Store
