/-
  Message ids over the LIVES of a directory (`recover_counters` of `src/store/persistent.rs`).

  `MESSAGE_COUNTER` is in memory.  When the directory is opened, `recover_counters` sets it anew, to one more
  than the largest id for which there still IS a record.  Ids that were drawn for an envelope, or for a message
  that has been deleted or pruned meanwhile, do not count; if they are larger than what is left, they are drawn
  again.

  * `perform_keys` — no operation makes a record under a new key but `store`;
  * `Accounted` — the ids drawn so far leave no gap above zero, so a counter that stands on a drawn id or below
    one is about to repeat one;
  * `ids_unique_iff` — hence ids are unique exactly when nothing is drawn after a restart that has not found
    the largest.
-/
import Smppd.Store.Expiry

set_option linter.unusedVariables false

namespace Smppd.Store

open Table Machine

/-! ## Reading the keys -/

/-- `str::parse::<u64>`: decimal digits, after an optional plus sign, that fit in 64 bits. -/
def parseU64 (text : Key) : Option UInt64 :=
  let digits := match text with
    | '+' :: rest => rest
    | l => l
  if digits ≠ [] ∧ digits.all Char.isDigit then
    let n := Nat.ofDigitChars 10 digits 0
    if n < 2 ^ 64 then some (UInt64.ofNat n) else none
  else none

/-- `key_str.strip_prefix("msg_")`, and the number behind it. -/
def msgKeyNumber (key : Key) : Option UInt64 :=
  if ['m', 's', 'g', '_'].isPrefixOf key then parseU64 (key.drop 4) else none

theorem parseU64_digits {n : Nat} (h : n < 2 ^ 64) : parseU64 (digits n) = some (UInt64.ofNat n) := by
  have hdigits : ∀ c ∈ digits n, c.isDigit = true := fun c hc => Nat.isDigit_of_mem_toDigits (by decide) (by decide) hc
  have hne : digits n ≠ [] := Nat.toDigits_ne_nil
  have hstripped : (match digits n with
      | '+' :: rest => rest
      | l => l) = digits n := by
    split
    · rename_i rest heq
      have hplus := hdigits '+' (by rw [heq]; exact List.mem_cons_self)
      cases hplus
    · rfl
  have hvalue : Nat.ofDigitChars 10 (digits n) 0 = n := Nat.ofDigitChars_ten_toDigits
  unfold parseU64
  rw [hstripped, if_pos ⟨hne, List.all_eq_true.mpr hdigits⟩]
  show (if Nat.ofDigitChars 10 (digits n) 0 < 2 ^ 64 then some (UInt64.ofNat (Nat.ofDigitChars 10 (digits n) 0))
    else none) = _
  rw [hvalue, if_pos h]

/-- The number in the key of a message is its id. -/
theorem msgKeyNumber_msgKey (id : MessageId) : msgKeyNumber (msgKey id) = some id.val := by
  show parseU64 (digits id.val.toNat) = some id.val
  rw [parseU64_digits id.val.toNat_lt, UInt64.ofNat_toNat]

theorem toNat_max (a b : UInt64) : (max a b).toNat = max a.toNat b.toNat := by
  show (if a ≤ b then b else a).toNat = _
  split <;> rename_i h <;> rw [UInt64.le_iff_toNat_le] at h <;> omega

/-- The largest of a list, from a start: an upper bound, and one of them. -/
theorem foldl_max_spec (l : List UInt64) (start : UInt64) :
    start.toNat ≤ (l.foldl max start).toNat ∧ (∀ a ∈ l, a.toNat ≤ (l.foldl max start).toNat) ∧
      (l.foldl max start = start ∨ l.foldl max start ∈ l) := by
  induction l generalizing start with
  | nil => exact ⟨Nat.le_refl _, fun a ha => absurd ha List.not_mem_nil, Or.inl rfl⟩
  | cons b l ih =>
    obtain ⟨hstart, hall, hone⟩ := ih (max start b)
    rw [toNat_max] at hstart
    rw [List.foldl_cons]
    refine ⟨by omega, fun a ha => ?_, ?_⟩
    · rcases List.mem_cons.mp ha with rfl | hlater
      · omega
      · exact hall a hlater
    · rcases hone with heq | hmem
      · have hmax : max start b = start ∨ max start b = b := by
          show (if start ≤ b then b else start) = start ∨ (if start ≤ b then b else start) = b
          split
          · exact Or.inr rfl
          · exact Or.inl rfl
        rw [heq]
        rcases hmax with hsame | hb
        · exact Or.inl hsame
        · right
          rw [hb]
          exact List.mem_cons_self
      · exact Or.inr (List.mem_cons_of_mem b hmem)

namespace PersistentStorage

/-- The first loop of `recover_counters`: the largest id in a key of `messages`, or zero. -/
def maxMsgId (s : PersistentStorage) : UInt64 :=
  (s.messages.iter.filterMap fun e => msgKeyNumber e.1).foldl max 0

/-- What `recover_counters` stores in `MESSAGE_COUNTER`. -/
def recoverCounters (s : PersistentStorage) : UInt64 := s.maxMsgId + 1

theorem Covered.mem_numbers {s : PersistentStorage} (h : s.Covered) {n : UInt64} :
    n ∈ (s.messages.iter.filterMap fun e => msgKeyNumber e.1) ↔ ∃ key p, s.messages.lookup key = some p ∧ p.id = n := by
  rw [List.mem_filterMap]
  constructor
  · rintro ⟨e, he, hn⟩
    have hlookup := Partition.mem_iter.mp he
    rw [h.keyed _ _ hlookup, msgKeyNumber_msgKey] at hn
    exact ⟨e.1, e.2, hlookup, Option.some.inj hn⟩
  · rintro ⟨key, p, hlookup, rfl⟩
    refine ⟨⟨key, p⟩, Partition.mem_iter.mpr hlookup, ?_⟩
    show msgKeyNumber key = some p.id
    rw [h.keyed key p hlookup, msgKeyNumber_msgKey]

/-- Every record's id is at most the largest. -/
theorem Covered.le_maxMsgId {s : PersistentStorage} (h : s.Covered) {key : Key} {p : PersistedMessage}
    (hp : s.messages.lookup key = some p) : p.id.toNat ≤ s.maxMsgId.toNat :=
  (foldl_max_spec _ 0).2.1 p.id (h.mem_numbers.mpr ⟨key, p, hp, rfl⟩)

/-- The largest is zero, or the id of a record. -/
theorem Covered.maxMsgId_found {s : PersistentStorage} (h : s.Covered) :
    s.maxMsgId = 0 ∨ ∃ key p, s.messages.lookup key = some p ∧ p.id = s.maxMsgId := by
  rcases (foldl_max_spec (s.messages.iter.filterMap fun e => msgKeyNumber e.1) 0).2.2 with hzero | hmem
  · exact Or.inl hzero
  · exact Or.inr (h.mem_numbers.mp hmem)

/-! ## Where records come from -/

/-- **The step lemma**: a record stands where there was one, or where `store` has put it. -/
theorem perform_keys {s : PersistentStorage} (h : s.Covered) {op : Op} {key : Key} {p : PersistedMessage}
    (hp : (s.perform op).messages.lookup key = some p) :
    (∃ p₀, s.messages.lookup key = some p₀) ∨ ∃ clock m, op = .store clock m ∧ key = msgKey m.id := by
  cases op with
  | store clock m =>
    rcases lookup_persist_eq_some.mp hp with ⟨hkey, -⟩ | ⟨-, hold⟩
    · exact Or.inr ⟨clock, m, rfl, hkey⟩
    · exact Or.inl ⟨p, hold⟩
  | update clock id f =>
    left
    rcases h.lookup_of_update f.keepsId hp with hold | ⟨p₀, hold, -⟩
    · exact ⟨p, hold⟩
    · exact ⟨p₀, hold⟩
  | delete clock id =>
    left
    change (s.delete clock id).1.messages.lookup key = some p at hp
    unfold delete at hp
    cases hl : s.loadMessage clock id with
    | none =>
      rw [hl] at hp
      exact ⟨p, hp⟩
    | some m =>
      rw [hl] at hp
      exact ⟨p, (lookup_erase_eq_some.mp hp).2⟩
  | expireOld clock ttl =>
    left
    change (s.expireOld clock ttl).1.messages.lookup key = some p at hp
    rw [h.lookup_expireOld] at hp
    obtain ⟨p₀, hp₀, -⟩ := Option.map_eq_some_iff.mp hp
    exact ⟨p₀, hp₀⟩
  | pruneTerminal clock maxAge =>
    left
    exact ⟨p, lookup_of_pruneTerminal hp⟩

end PersistentStorage

/-! ## A directory and the processes that open it -/

/-- A directory, with the counter of the process that has it open.  `allocated` and `caughtUp` are ghosts: the
    ids drawn so far, the latest first, and whether the last restart has found the largest of them. -/
structure Directory where
  disk : PersistentStorage
  counter : Nat
  allocated : List MessageId
  caughtUp : Bool

namespace Directory

/-- A new directory, in a new process. -/
def new : Directory := ⟨.empty, 0, [], true⟩

/-- What can happen to it. -/
inductive Act where
  /-- `MessageId::new`, for a message or for an envelope. -/
  | allocate
  /-- An operation of the store. -/
  | perform (op : PersistentStorage.Op)
  /-- The directory is opened by a new process. -/
  | restart

/-- For each id drawn so far there is a record with at least that id (zero is below every counter). -/
def findsLargest (d : Directory) : Bool :=
  d.allocated.all fun id => id.val = 0 || d.disk.messages.entries.any fun e => id.val ≤ e.2.id

/-- A message is stored under an id that was drawn for it. -/
def Admits (d : Directory) : PersistentStorage.Op → Prop
  | .store _ message => message.id ∈ d.allocated
  | _ => True

instance (d : Directory) (op : PersistentStorage.Op) : Decidable (d.Admits op) := by
  cases op <;> unfold Admits <;> infer_instance

/-- One step, as long as fewer than `2^64` ids are drawn. -/
def step (d : Directory) : Act → Option Directory
  | .allocate =>
    if d.allocated.length + 1 < 2 ^ 64 then
      let (id, counter) := MessageId.new d.counter
      some { d with counter := counter, allocated := id :: d.allocated }
    else none
  | .perform op => if d.Admits op then some { d with disk := d.disk.perform op } else none
  | .restart => some { d with counter := d.disk.recoverCounters.toNat, caughtUp := d.findsLargest }

/-- Nothing is drawn after a restart that has not found the largest id drawn until then. -/
def DrawsAbove (d : Directory) : Act → Prop
  | .allocate => d.caughtUp = true
  | _ => True

/-! ## What has been drawn -/

/-- The number has been drawn. -/
def Drawn (d : Directory) (k : Nat) : Prop := ∃ id ∈ d.allocated, id.val.toNat = k

/-- Where the counter stands. -/
structure Counted (d : Directory) : Prop where
  bound : d.counter ≤ d.allocated.length + 1
  started : d.counter = 0 → d.allocated = []
  filled : ∀ k, 0 < k → k < d.counter → d.Drawn k
  caughtUp : d.allocated.Nodup → (d.caughtUp = true ↔ ∀ id ∈ d.allocated, id.val.toNat < d.counter)

/-- **The invariant**: records have drawn ids, and what is drawn leaves no gap. -/
structure Accounted (d : Directory) : Prop where
  covered : d.disk.Covered
  drawn : ∀ key p, d.disk.messages.lookup key = some p → (⟨p.id⟩ : MessageId) ∈ d.allocated
  below : ∀ id ∈ d.allocated, id.val.toNat ≤ d.allocated.length
  dense : ∀ id ∈ d.allocated, ∀ k, 0 < k → k < id.val.toNat → d.Drawn k
  counted : d.allocated.length + 1 < 2 ^ 64 → d.Counted

theorem accounted_new : Accounted new where
  covered := PersistentStorage.covered_empty
  drawn := fun key p h => nomatch h
  below := fun id h => nomatch h
  dense := fun id h => nomatch h
  counted := by
    intro _
    refine ⟨Nat.zero_le _, fun _ => rfl, ?_, ?_⟩
    · intro k hpos hk
      exact absurd hk (Nat.not_lt_zero k)
    · intro _
      exact iff_of_true rfl fun id h => nomatch h

/-- The next id is the value of the counter. -/
theorem Accounted.next {d : Directory} (h : d.Accounted) (hroom : d.allocated.length + 1 < 2 ^ 64) :
    (MessageId.new d.counter).1.val.toNat = d.counter := by
  have hbound := (h.counted hroom).bound
  exact MessageId.new_toNat (by omega)

theorem mem_of_toNat_eq {ids : List MessageId} {id id' : MessageId} (hmem : id ∈ ids)
    (heq : id.val.toNat = id'.val.toNat) : id' ∈ ids := by
  rw [← MessageId.ext_toNat heq]
  exact hmem

/-- **The crux**: the next id is a new one exactly when the counter is above everything drawn so far. -/
theorem Accounted.fresh_iff {d : Directory} (h : d.Accounted) (hroom : d.allocated.length + 1 < 2 ^ 64) :
    (MessageId.new d.counter).1 ∉ d.allocated ↔ ∀ id ∈ d.allocated, id.val.toNat < d.counter := by
  have hnext := h.next hroom
  have hcounted := h.counted hroom
  constructor
  · intro hfresh id hid
    by_contra hle
    rcases Nat.lt_or_eq_of_le (Nat.le_of_not_lt hle) with hlt | heq
    · -- nothing below a drawn id was left out
      have hpos : 0 < d.counter := by
        rcases Nat.eq_zero_or_pos d.counter with hzero | hpos
        · rw [hcounted.started hzero] at hid
          cases hid
        · exact hpos
      obtain ⟨id', hid', heq⟩ := h.dense id hid d.counter hpos hlt
      exact hfresh (mem_of_toNat_eq hid' (heq.trans hnext.symm))
    · exact hfresh (mem_of_toNat_eq hid (heq.symm.trans hnext.symm))
  · intro habove hmem
    have hlt := habove _ hmem
    omega

/-- **One allocation**: it repeats no id exactly when the last restart has found the largest. -/
theorem Accounted.nodup_iff {d : Directory} (h : d.Accounted) (hroom : d.allocated.length + 1 < 2 ^ 64)
    (hnodup : d.allocated.Nodup) :
    ((MessageId.new d.counter).1 :: d.allocated).Nodup ↔ d.caughtUp = true := by
  rw [List.nodup_cons, and_iff_left hnodup, h.fresh_iff hroom, (h.counted hroom).caughtUp hnodup]

/-! ## The invariant is kept -/

theorem Accounted.allocate {d : Directory} (h : d.Accounted) (hroom : d.allocated.length + 1 < 2 ^ 64) :
    Accounted { d with
      counter := (MessageId.new d.counter).2, allocated := (MessageId.new d.counter).1 :: d.allocated } := by
  have hnext := h.next hroom
  have hcounted := h.counted hroom
  have hbound := hcounted.bound
  have hmono : ∀ k, d.Drawn k → ∃ id ∈ (MessageId.new d.counter).1 :: d.allocated, id.val.toNat = k := by
    rintro k ⟨id, hid, hk⟩
    exact ⟨id, List.mem_cons_of_mem _ hid, hk⟩
  refine ⟨h.covered, ?_, ?_, ?_, ?_⟩
  · intro key p hp
    exact List.mem_cons_of_mem _ (h.drawn key p hp)
  · intro id hid
    show id.val.toNat ≤ d.allocated.length + 1
    rcases List.mem_cons.mp hid with rfl | hold
    · omega
    · have := h.below id hold
      omega
  · intro id hid k hpos hk
    apply hmono
    rcases List.mem_cons.mp hid with rfl | hold
    · exact hcounted.filled k hpos (by omega)
    · exact h.dense id hold k hpos hk
  · intro _
    refine ⟨?_, ?_, ?_, ?_⟩
    · show d.counter + 1 ≤ d.allocated.length + 1 + 1
      omega
    · intro hzero
      cases hzero
    · intro k hpos hk
      have hk' : k < d.counter + 1 := hk
      rcases Nat.lt_or_eq_of_le (Nat.le_of_lt_succ hk') with hlt | heq
      · exact hmono k (hcounted.filled k hpos hlt)
      · exact ⟨_, List.mem_cons_self, hnext.trans heq.symm⟩
    · intro hnodup
      have hold := (List.nodup_cons.mp hnodup).2
      have habove := (h.fresh_iff hroom).mp (List.nodup_cons.mp hnodup).1
      refine iff_of_true ((h.nodup_iff hroom hold).mp hnodup) fun id hid => ?_
      show id.val.toNat < d.counter + 1
      rcases List.mem_cons.mp hid with rfl | hlater
      · omega
      · have := habove id hlater
        omega

theorem Accounted.perform {d : Directory} (h : d.Accounted) {op : PersistentStorage.Op} (hadmits : d.Admits op) :
    Accounted { d with disk := d.disk.perform op } where
  covered := PersistentStorage.covered_perform h.covered op
  drawn := by
    intro key p hp
    have hcovered := PersistentStorage.covered_perform h.covered op
    have hkey := hcovered.keyed key p hp
    rcases PersistentStorage.perform_keys h.covered hp with ⟨p₀, hp₀⟩ | ⟨clock, m, rfl, hm⟩
    · have hsame : (⟨p.id⟩ : MessageId) = ⟨p₀.id⟩ := msgKey_injective (hkey.symm.trans (h.covered.keyed key p₀ hp₀))
      rw [hsame]
      exact h.drawn key p₀ hp₀
    · have hsame : (⟨p.id⟩ : MessageId) = m.id := msgKey_injective (hkey.symm.trans hm)
      rw [hsame]
      exact hadmits
  below := h.below
  dense := h.dense
  counted := fun hroom =>
    let hcounted := h.counted hroom
    ⟨hcounted.bound, hcounted.started, hcounted.filled, hcounted.caughtUp⟩

/-- What a restart finds: the largest id that has a record. -/
theorem Accounted.findsLargest_iff {d : Directory} (h : d.Accounted) :
    d.findsLargest = true ↔ ∀ id ∈ d.allocated, id.val.toNat ≤ d.disk.maxMsgId.toNat := by
  unfold findsLargest
  rw [List.all_eq_true]
  refine forall₂_congr fun id _ => ?_
  rw [Bool.or_eq_true, decide_eq_true_eq, List.any_eq_true]
  constructor
  · rintro (hzero | ⟨e, he, hle⟩)
    · rw [hzero]
      exact Nat.zero_le _
    · rw [decide_eq_true_eq, UInt64.le_iff_toNat_le] at hle
      exact Nat.le_trans hle (h.covered.le_maxMsgId (mem_entries.mp he))
  · intro hle
    rcases h.covered.maxMsgId_found with hzero | ⟨key, p, hp, hmax⟩
    · left
      rw [hzero] at hle
      exact UInt64.toNat_inj.mp (Nat.le_zero.mp hle)
    · refine Or.inr ⟨⟨key, p⟩, mem_entries.mpr hp, ?_⟩
      rw [decide_eq_true_eq, UInt64.le_iff_toNat_le]
      show id.val.toNat ≤ p.id.toNat
      rw [hmax]
      exact hle

theorem Accounted.maxMsgId_drawn {d : Directory} (h : d.Accounted) :
    d.disk.maxMsgId.toNat = 0 ∨ (⟨d.disk.maxMsgId⟩ : MessageId) ∈ d.allocated := by
  rcases h.covered.maxMsgId_found with hzero | ⟨key, p, hp, hmax⟩
  · left
    rw [hzero]
    rfl
  · right
    rw [← hmax]
    exact h.drawn key p hp

theorem Accounted.restart {d : Directory} (h : d.Accounted) :
    Accounted { d with counter := d.disk.recoverCounters.toNat, caughtUp := d.findsLargest } := by
  refine ⟨h.covered, h.drawn, h.below, h.dense, fun hroom => ?_⟩
  have hmax : d.disk.maxMsgId.toNat ≤ d.allocated.length := by
    rcases h.maxMsgId_drawn with hzero | hmem
    · omega
    · exact h.below _ hmem
  have hcounter : d.disk.recoverCounters.toNat = d.disk.maxMsgId.toNat + 1 := by
    unfold PersistentStorage.recoverCounters
    rw [UInt64.toNat_add, show (1 : UInt64).toNat = 1 from rfl]
    change d.allocated.length + 1 < 2 ^ 64 at hroom
    omega
  refine ⟨?_, ?_, ?_, ?_⟩
  · show d.disk.recoverCounters.toNat ≤ d.allocated.length + 1
    omega
  · intro hzero
    change d.disk.recoverCounters.toNat = 0 at hzero
    omega
  · intro k hpos hk
    change k < d.disk.recoverCounters.toNat at hk
    rcases h.maxMsgId_drawn with hzero | hmem
    · omega
    · rcases Nat.lt_or_eq_of_le (show k ≤ d.disk.maxMsgId.toNat by omega) with hlt | heq
      · exact h.dense _ hmem k hpos hlt
      · exact ⟨_, hmem, heq.symm⟩
  · intro _
    show d.findsLargest = true ↔ ∀ id ∈ d.allocated, id.val.toNat < d.disk.recoverCounters.toNat
    rw [h.findsLargest_iff, hcounter]
    exact forall₂_congr fun id _ => Nat.lt_succ_iff.symm

/-- What a step does. -/
theorem step_cases {d d' : Directory} {act : Act} (hstep : step d act = some d') :
    (act = .allocate ∧ d.allocated.length + 1 < 2 ^ 64 ∧ d' = { d with
        counter := (MessageId.new d.counter).2, allocated := (MessageId.new d.counter).1 :: d.allocated }) ∨
      (∃ op, act = .perform op ∧ d.Admits op ∧ d' = { d with disk := d.disk.perform op }) ∨
      (act = .restart ∧ d' = { d with counter := d.disk.recoverCounters.toNat, caughtUp := d.findsLargest }) := by
  cases act with
  | allocate =>
    simp only [step] at hstep
    split at hstep
    · rename_i hroom
      exact Or.inl ⟨rfl, hroom, (Option.some.inj hstep).symm⟩
    · cases hstep
  | perform op =>
    simp only [step] at hstep
    split at hstep
    · rename_i hadmits
      exact Or.inr (Or.inl ⟨op, rfl, hadmits, (Option.some.inj hstep).symm⟩)
    · cases hstep
  | restart => exact Or.inr (Or.inr ⟨rfl, (Option.some.inj hstep).symm⟩)

theorem Accounted.step {d d' : Directory} {act : Act} (h : d.Accounted) (hstep : step d act = some d') :
    d'.Accounted := by
  obtain ⟨-, hroom, rfl⟩ | ⟨op, -, hadmits, rfl⟩ | ⟨-, rfl⟩ := step_cases hstep
  · exact h.allocate hroom
  · exact h.perform hadmits
  · exact h.restart

theorem Accounted.unique_iff {d d' : Directory} {act : Act} (h : d.Accounted) (hnodup : d.allocated.Nodup)
    (hstep : Directory.step d act = some d') : d'.allocated.Nodup ↔ d.DrawsAbove act := by
  obtain ⟨rfl, hroom, rfl⟩ | ⟨op, rfl, -, rfl⟩ | ⟨rfl, rfl⟩ := step_cases hstep
  · exact h.nodup_iff hroom hnodup
  · exact iff_of_true hnodup trivial
  · exact iff_of_true hnodup trivial

/-- What is drawn stays on the list. -/
theorem allocated_suffix {d d' : Directory} {acts : List Act} (hrun : run step d acts = some d') :
    d.allocated <:+ d'.allocated := by
  have hkept : ∀ (e : Directory) act e', d.allocated <:+ e.allocated → step e act = some e' →
      d.allocated <:+ e'.allocated := by
    intro e act e' hsuffix hstep
    obtain ⟨-, -, rfl⟩ | ⟨op, -, -, rfl⟩ | ⟨-, rfl⟩ := step_cases hstep
    · exact hsuffix.trans (List.suffix_cons _ _)
    · exact hsuffix
    · exact hsuffix
  exact run_inv hkept (List.suffix_refl _) hrun

/-! ## Every history -/

/-- **Message ids are unique** over a history of fewer than `2^64` allocations, any operations of the store and
    any restarts, exactly when nothing is drawn after a restart that has not found the largest id drawn until
    then. -/
theorem ids_unique_iff {acts : List Act} {d : Directory} (hrun : run step new acts = some d) :
    d.allocated.Nodup ↔ Meets step DrawsAbove new acts := by
  have hinv : ∀ (d : Directory) act d', d.Accounted → step d act = some d' → d'.Accounted :=
    fun d act d' h hstep => h.step hstep
  have hstep : ∀ (d : Directory) act d', d.Accounted → d.allocated.Nodup → step d act = some d' →
      (d'.allocated.Nodup ↔ d.DrawsAbove act) :=
    fun d act d' h hnodup hstep => h.unique_iff hnodup hstep
  rw [meets_iff_always hinv hstep accounted_new List.nodup_nil hrun]
  constructor
  · intro hnodup before after t hacts hbefore
    rw [hacts, run_append, hbefore, Option.bind_some] at hrun
    exact hnodup.sublist (allocated_suffix hrun).sublist
  · intro hall
    exact hall acts [] d (List.append_nil acts).symm hrun

/-- The first messages of a directory that is opened, one of them stored. -/
theorem ids_unique_after_restart :
    let acts := [.restart, .allocate, .allocate, .perform (.store ⟨0, 0⟩ (.sample 2)), .restart, .allocate]
    ∃ d, run step new acts = some d ∧ (d.allocated.Nodup ↔ Meets step DrawsAbove new acts) := by
  intro acts
  have hrun : (run step new acts).isSome = true := by decide +kernel
  obtain ⟨d, hd⟩ := Option.isSome_iff_exists.mp hrun
  exact ⟨d, hd, ids_unique_iff hd⟩

/-- A message is stored and deleted, and the directory is opened again: its id is drawn once more. -/
theorem ids_repeated :
    let acts := [.restart, .allocate, .perform (.store ⟨0, 0⟩ (.sample 1)),
      .perform (.delete ⟨1, 1⟩ (StoredMessage.sample 1).id), .restart, .allocate]
    ∃ d, run step new acts = some d ∧ d.allocated = [⟨1⟩, ⟨1⟩] ∧ ¬ d.allocated.Nodup := by
  intro acts
  have hrun : (run step new acts).map Directory.allocated = some [⟨1⟩, ⟨1⟩] := by decide +kernel
  obtain ⟨d, hd, hallocated⟩ := Option.map_eq_some_iff.mp hrun
  refine ⟨d, hd, hallocated, ?_⟩
  rw [hallocated]
  decide

end Directory

end Smppd.Store
