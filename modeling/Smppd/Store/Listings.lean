/-
  What the LISTINGS of a store return: `get_pending`, `query` and `get_recoverable_messages`, in both back
  ends, from whatever contents.

  The three promises are stated once, over the contents (`QueueAnswer`, `QueryAnswer`, `Recovers`), and each
  back end is compared with them.

  * The in-memory back end filters the values of its map, and sorts before it cuts off: it keeps the first
    two.  Its recovery is three queries with the default limit, so it keeps the third up to a thousand
    messages in a state.
  * The persistent back end walks its index: in the order of decimal ids whatever the priorities, without a
    look at the other filters of a query, and past the entries that overwriting a message left behind.  What
    it returns is then right exactly where the walk does not come to a message that tells the difference.
-/
import Smppd.Store.Contents
import Smppd.Store.Query

set_option linter.unusedVariables false

namespace Smppd.Store

open Table Machine

/-! ## The pending queue -/

theorem Priority.code_injective {p q : Priority} (h : p.code.toNat = q.code.toNat) : p = q := by
  cases p <;> cases q <;> first | rfl | exact absurd h (by decide)

/-- The order of the queue: the higher priority first, and at equal priority the older message. -/
def ComesBefore (created : StoredMessage → Int) (a b : StoredMessage) : Prop :=
  b.priority.code < a.priority.code ∨ (a.priority = b.priority ∧ created a < created b)

/-- `result` is the head of the queue of pending messages in `content`. -/
structure QueueAnswer (created : StoredMessage → Int) (content : List StoredMessage) (limit : Nat)
    (result : List StoredMessage) : Prop where
  size : result.length = min limit (content.countP fun m => m.state = .pending)
  nodup : (result.map StoredMessage.id).Nodup
  pending : ∀ m ∈ result, m ∈ content ∧ m.state = .pending
  sorted : result.Pairwise fun a b => ¬ ComesBefore created b a
  first : ∀ a ∈ result, ∀ b ∈ content, b.state = .pending → b ∉ result → ¬ ComesBefore created b a

namespace MemoryStorage

/-- The comparison puts `a` first unless `b` comes before it. -/
theorem queueLe_iff {a b : StoredMessage} :
    queueLe a b = true ↔ ¬ ComesBefore StoredMessage.createdAt b a := by
  unfold queueLe ComesBefore
  rw [Bool.or_eq_true, Bool.and_eq_true, decide_eq_true_eq, decide_eq_true_eq, decide_eq_true_eq, not_or,
    UInt8.lt_iff_toNat_lt, UInt8.lt_iff_toNat_lt]
  constructor
  · rintro (hlt | ⟨heq, hle⟩)
    · refine ⟨Nat.lt_asymm hlt, fun h => ?_⟩
      rw [h.1] at hlt
      exact Nat.lt_irrefl _ hlt
    · rw [heq]
      exact ⟨Nat.lt_irrefl _, fun h => absurd h.2 (Int.not_lt.mpr hle)⟩
  · rintro ⟨hcode, hage⟩
    rcases Nat.lt_or_ge b.priority.code.toNat a.priority.code.toNat with hlt | hge
    · exact Or.inl hlt
    · have heq : a.priority = b.priority :=
        Priority.code_injective (Nat.le_antisymm hge (Nat.not_lt.mp hcode))
      refine Or.inr ⟨heq, ?_⟩
      by_contra hlt
      exact hage ⟨heq.symm, Int.not_le.mp hlt⟩

theorem queueLe_trans (a b c : StoredMessage) (hab : queueLe a b = true) (hbc : queueLe b c = true) :
    queueLe a c = true := by
  unfold queueLe at *
  simp only [Bool.or_eq_true, Bool.and_eq_true, decide_eq_true_eq, UInt8.lt_iff_toNat_lt] at *
  rcases hab with hab | ⟨hab, hage⟩
  · rcases hbc with hbc | ⟨hbc, -⟩
    · exact Or.inl (Nat.lt_trans hbc hab)
    · rw [← hbc]
      exact Or.inl hab
  · rcases hbc with hbc | ⟨hbc, hage'⟩
    · rw [hab]
      exact Or.inl hbc
    · exact Or.inr ⟨hab.trans hbc, Int.le_trans hage hage'⟩

theorem queueLe_total (a b : StoredMessage) : (queueLe a b || queueLe b a) = true := by
  rw [Bool.or_eq_true, queueLe_iff, queueLe_iff]
  by_contra hboth
  rw [not_or, not_not, not_not] at hboth
  obtain ⟨hba, hab⟩ := hboth
  unfold ComesBefore at hba hab
  rw [UInt8.lt_iff_toNat_lt] at hba hab
  rcases hba with hlt | ⟨heq, hlt⟩
  · rcases hab with hlt' | ⟨heq', -⟩
    · exact Nat.lt_asymm hlt hlt'
    · rw [heq'] at hlt
      exact Nat.lt_irrefl _ hlt
  · rcases hab with hlt' | ⟨-, hlt'⟩
    · rw [heq] at hlt'
      exact Nat.lt_irrefl _ hlt'
    · exact Int.lt_asymm hlt hlt'

/-- `get_pending` sorts, and then cuts off. -/
theorem getPending_answer {s : MemoryStorage} (h : Keyed s) (order : IterOrder Entry) (limit : Nat) :
    QueueAnswer StoredMessage.createdAt s.contents limit (s.getPending order limit) := by
  have hmem : ∀ m, m ∈ ((order.arrange s.messages.entries).map fun e => e.2).filter
      (fun m => m.state = .pending) ↔ m ∈ s.contents ∧ m.state = .pending := by
    intro m
    rw [List.mem_filter, (arrange_perm_contents order s).mem_iff, decide_eq_true_eq]
  refine ⟨?_, ?_, ?_, ?_, ?_⟩
  · rw [getPending, List.length_take, List.length_mergeSort, ← List.countP_eq_length_filter,
      (arrange_perm_contents order s).countP_eq]
  · have hfiltered := (h.arranged_ids_nodup order).sublist
      (List.filter_sublist (p := fun m : StoredMessage => m.state = .pending) |>.map StoredMessage.id)
    have hsorted := ((List.mergeSort_perm _ queueLe).map StoredMessage.id).nodup_iff.mpr hfiltered
    exact hsorted.sublist ((List.take_sublist _ _).map _)
  · intro m hm
    exact (hmem m).mp (List.mem_mergeSort.mp (List.mem_of_mem_take hm))
  · refine (Select.pairwise_take_mergeSort queueLe_trans queueLe_total _ _).imp fun hle => ?_
    exact queueLe_iff.mp hle
  · intro a ha b hb hpending hout
    have hin := (hmem b).mpr ⟨hb, hpending⟩
    exact queueLe_iff.mp (Select.le_of_mem_take_mergeSort queueLe_trans queueLe_total ha hin hout)

end MemoryStorage

namespace PersistentStorage

/-- Where the order of the index is the order of the queue, as far as the walk goes. -/
structure WalkIsQueue (clock : Clock) (limit : Nat) (s : PersistentStorage) : Prop where
  /-- What is listed under `Pending` is pending. -/
  current : ∀ m ∈ s.contents clock, s.listedUnder .pending m = true →
    placeOf (s.listedUnder .pending) (s.contents clock) m < limit → m.state = .pending
  /-- No pending message comes before one with a smaller id. -/
  ordered : ∀ a ∈ s.contents clock, ∀ b ∈ s.contents clock, a.state = .pending → b.state = .pending →
    placeOf (s.listedUnder .pending) (s.contents clock) a < limit → a.id.decimal < b.id.decimal →
    ¬ ComesBefore StoredMessage.createdTime b a

/-- `get_pending` is a walk of the index. -/
theorem getPending_answer_iff {s : PersistentStorage} (h : Covered s) (clock : Clock) (limit : Nat) :
    QueueAnswer StoredMessage.createdTime (s.contents clock) limit (s.getPending clock limit) ↔
      s.WalkIsQueue clock limit := by
  have hmem : ∀ m, m ∈ s.getPending clock limit ↔ m ∈ s.contents clock ∧ s.listedUnder .pending m = true ∧
      placeOf (s.listedUnder .pending) (s.contents clock) m < limit := fun m => h.mem_getByState
  have hlisted : ∀ m ∈ s.contents clock, m.state = .pending → s.listedUnder .pending m = true :=
    fun m hm hpending => h.listedUnder hm hpending
  have hordered : InKeyOrder (s.getPending clock limit) := by
    rw [getPending, h.getByState_eq_take]
    exact (List.Pairwise.filter _ (h.contents_inKeyOrder clock)).sublist (List.take_sublist _ _)
  constructor
  · intro hans
    refine ⟨fun m hm hl hplace => (hans.pending m ((hmem m).mpr ⟨hm, hl, hplace⟩)).2, ?_⟩
    intro a ha b hb hpa hpb hplace hlt
    have hina := (hmem a).mpr ⟨ha, hlisted a ha hpa, hplace⟩
    by_cases hinb : b ∈ s.getPending clock limit
    · exact (Rank.pairwise_iff_of_sorted hordered).mp hans.sorted a hina b hinb hlt
    · exact hans.first a hina b hb hpb hinb
  · intro hwalk
    have hpending : ∀ m ∈ s.getPending clock limit, m ∈ s.contents clock ∧ m.state = .pending := by
      intro m hm
      obtain ⟨hin, hl, hplace⟩ := (hmem m).mp hm
      exact ⟨hin, hwalk.current m hin hl hplace⟩
    refine ⟨?_, h.getByState_ids_nodup clock .pending limit, hpending, ?_, ?_⟩
    · have hsize := Rank.length_take_filter (q := fun m : StoredMessage => decide (m.state = .pending))
        (l := s.contents clock) (p := s.listedUnder .pending) (n := limit) fun m hm => by
          rw [← h.getByState_eq_take] at hm
          exact decide_eq_true (hpending m hm).2
      rw [← h.getByState_eq_take] at hsize
      refine hsize.trans (congrArg (min limit) (List.countP_congr fun m hm => ?_))
      rw [Bool.and_eq_true, decide_eq_true_eq]
      exact and_iff_right_of_imp (hlisted m hm)
    · refine (Rank.pairwise_iff_of_sorted hordered).mpr fun a ha b hb hlt => ?_
      exact hwalk.ordered a (hpending a ha).1 b (hpending b hb).1 (hpending a ha).2 (hpending b hb).2
        ((hmem a).mp ha).2.2 hlt
    · intro a ha b hb hpb hout
      -- a pending message left out is one the walk did not get to
      have hbeyond : ¬ placeOf (s.listedUnder .pending) (s.contents clock) b < limit := fun hplace =>
        hout ((hmem b).mpr ⟨hb, hlisted b hb hpb, hplace⟩)
      have hplace := ((hmem a).mp ha).2.2
      exact hwalk.ordered a (hpending a ha).1 b hb (hpending a ha).2 hpb hplace (lt_of_scan hplace hbeyond)

end PersistentStorage

/-- **The pending queue.**  After any sequences of operations, `get_pending` of both back ends is the head of
    the queue exactly where the order of the ids in the persistent one is the order of the queue. -/
theorem pending_queue_iff {config : MemoryStoreConfig} {memoryOps : List Retention.Op} {memory : MemoryStorage}
    {diskOps : List PersistentStorage.Op} {disk : PersistentStorage}
    (hids : ∀ op ∈ memoryOps, MemoryStorage.KeepsId op)
    (hmemory : run MemoryStorage.performing (.withConfig config) memoryOps = some memory)
    (hdisk : run PersistentStorage.performing .empty diskOps = some disk)
    (order : IterOrder Entry) (clock : Clock) (limit : Nat) :
    QueueAnswer StoredMessage.createdAt memory.contents limit (memory.getPending order limit) ∧
        QueueAnswer StoredMessage.createdTime (disk.contents clock) limit (disk.getPending clock limit) ↔
      disk.WalkIsQueue clock limit := by
  have hkeyed := MemoryStorage.run_keyed hids hmemory
  rw [and_iff_right (MemoryStorage.getPending_answer hkeyed order limit)]
  exact PersistentStorage.getPending_answer_iff (PersistentStorage.run_covered hdisk) clock limit

/-- A message of low priority, and after it one of high priority, in both back ends. -/
theorem pending_queue_of_two :
    let low : StoredMessage := { StoredMessage.sample 0 with priority := .low }
    let high : StoredMessage := { StoredMessage.sample 1 with priority := .high }
    let memory := ((MemoryStorage.withConfig ⟨100, 512, 10⟩).store .listed low).store .listed high
    let disk := (PersistentStorage.empty.store ⟨0, 0⟩ low).store ⟨0, 0⟩ high
    QueueAnswer StoredMessage.createdAt memory.contents 1 (memory.getPending .listed 1) ∧
        QueueAnswer StoredMessage.createdTime (disk.contents ⟨1, 1⟩) 1 (disk.getPending ⟨1, 1⟩ 1) ↔
      disk.WalkIsQueue ⟨1, 1⟩ 1 := by
  intro low high memory disk
  have hmemory : run MemoryStorage.performing (.withConfig ⟨100, 512, 10⟩)
    [.store .listed low, .store .listed high] = some memory := rfl
  have hdisk : run PersistentStorage.performing .empty [.store ⟨0, 0⟩ low, .store ⟨0, 0⟩ high] = some disk := rfl
  refine pending_queue_iff (fun op hop => ?_) hmemory hdisk .listed ⟨1, 1⟩ 1
  rcases List.mem_pair.mp hop with rfl | rfl <;> exact trivial

/-- From the persistent store the message of low priority comes first: its id is the smaller one. -/
theorem pending_queue_by_id :
    let low : StoredMessage := { StoredMessage.sample 0 with priority := .low }
    let high : StoredMessage := { StoredMessage.sample 1 with priority := .high }
    let disk := (PersistentStorage.empty.store ⟨0, 0⟩ low).store ⟨0, 0⟩ high
    run PersistentStorage.performing .empty [.store ⟨0, 0⟩ low, .store ⟨0, 0⟩ high] = some disk ∧
      ¬ QueueAnswer StoredMessage.createdTime (disk.contents ⟨1, 1⟩) 3 (disk.getPending ⟨1, 1⟩ 3) := by
  intro low high disk
  have hrun : run PersistentStorage.performing .empty [.store ⟨0, 0⟩ low, .store ⟨0, 0⟩ high] = some disk := rfl
  refine ⟨hrun, fun hans => ?_⟩
  have hcovered := PersistentStorage.run_covered hrun
  have hwalk := (PersistentStorage.getPending_answer_iff hcovered ⟨1, 1⟩ 3).mp hans
  have hlow : persistedToStored ⟨1, 1⟩ (toPersisted ⟨0, 0⟩ low) ∈ disk.contents ⟨1, 1⟩ :=
    hcovered.mem_contents.mpr ⟨_, (AList.lookup_insert_ne (by decide)).trans (AList.lookup_insert _), rfl⟩
  have hhigh : persistedToStored ⟨1, 1⟩ (toPersisted ⟨0, 0⟩ high) ∈ disk.contents ⟨1, 1⟩ :=
    hcovered.mem_contents.mpr ⟨_, AList.lookup_insert _, rfl⟩
  have hroom : disk.messages.entries.length ≤ 3 := by decide +kernel
  exact hwalk.ordered _ hlow _ hhigh rfl rfl (PersistentStorage.placeOf_lt _ hlow hroom) (by decide)
    (Or.inl (by decide))

/-! ## Queries -/

/-- The message satisfies every filter that is set, `created` being when it was created. -/
def meetsAll (q : MessageQuery) (created : Instant) (m : StoredMessage) : Bool :=
  q.state.all (fun st => m.state = st)
    && q.systemId.all (fun sys => m.systemId = sys)
    && q.destinationPrefix.all (fun p => p.toList.isPrefixOf m.destination.toList)
    && q.cluster.all (fun c => m.cluster = some c)
    && q.createdAfter.all (fun t => decide (t ≤ created))

/-- `result` answers the query over `content`. -/
structure QueryAnswer (created : StoredMessage → Instant) (q : MessageQuery) (content result : List StoredMessage) :
    Prop where
  nodup : (result.map StoredMessage.id).Nodup
  sound : ∀ m ∈ result, m ∈ content ∧ meetsAll q (created m) m = true
  size : result.length = min (q.limit.getD 1000) (content.countP fun m => meetsAll q (created m) m)

namespace MemoryStorage

theorem selects_eq (q : MessageQuery) (m : StoredMessage) : selects q m = meetsAll q m.createdAt m := by
  have hage : (fun t => !decide (m.createdAt < t)) = fun t => decide (t ≤ m.createdAt) := by
    funext t
    rw [← decide_not]
    exact decide_eq_decide.mpr Int.not_lt
  unfold selects meetsAll
  rw [hage]

/-- `query` looks at every filter. -/
theorem query_answer {s : MemoryStorage} (h : Keyed s) (order : IterOrder Entry) (q : MessageQuery) :
    QueryAnswer StoredMessage.createdAt q s.contents (s.query order q) := by
  refine ⟨?_, ?_, ?_⟩
  · refine (h.arranged_ids_nodup order).sublist (List.Sublist.map _ ?_)
    exact (List.take_sublist _ _).trans List.filter_sublist
  · intro m hm
    obtain ⟨hin, hsel⟩ := List.mem_filter.mp (List.mem_of_mem_take hm)
    rw [selects_eq] at hsel
    exact ⟨(arrange_perm_contents order s).mem_iff.mp hin, hsel⟩
  · rw [query, List.length_take, ← List.countP_eq_length_filter, (arrange_perm_contents order s).countP_eq]
    exact congrArg (min _) (List.countP_congr fun m _ => by rw [selects_eq])

end MemoryStorage

namespace PersistentStorage

/-- What `query` looks at: the state if one is asked for, the other filters if none is. -/
def looksAt (q : MessageQuery) (s : PersistentStorage) : StoredMessage → Bool :=
  match q.state with
  | some state => s.listedUnder state
  | none => selects q

theorem Covered.query_eq_take {s : PersistentStorage} (h : Covered s) (clock : Clock) (q : MessageQuery) :
    s.query clock q = ((s.contents clock).filter (s.looksAt q)).take (q.limit.getD 1000) := by
  unfold query looksAt
  cases q.state with
  | some state => exact h.getByState_eq_take clock state _
  | none => rfl

/-- What satisfies every filter passes what `query` looks at. -/
theorem Covered.looksAt_of_meetsAll {s : PersistentStorage} (h : Covered s) {clock : Clock}
    {q : MessageQuery} {created : Instant} {m : StoredMessage} (hm : m ∈ s.contents clock)
    (hall : meetsAll q created m = true) : s.looksAt q m = true := by
  unfold meetsAll at hall
  simp only [Bool.and_eq_true] at hall
  obtain ⟨⟨⟨⟨hstate, hsys⟩, hprefix⟩, hcluster⟩, -⟩ := hall
  unfold looksAt
  cases hq : q.state with
  | some state =>
    rw [hq] at hstate
    exact h.listedUnder hm (of_decide_eq_true hstate)
  | none => exact Bool.and_eq_true_iff.mpr ⟨Bool.and_eq_true_iff.mpr ⟨hsys, hprefix⟩, hcluster⟩

/-- `query` answers exactly when no message it comes to fails a filter. -/
theorem query_answer_iff {s : PersistentStorage} (h : Covered s) (clock : Clock) (q : MessageQuery)
    (created : StoredMessage → Instant) :
    QueryAnswer created q (s.contents clock) (s.query clock q) ↔
      ∀ m ∈ s.contents clock, s.looksAt q m = true →
        placeOf (s.looksAt q) (s.contents clock) m < q.limit.getD 1000 → meetsAll q (created m) m = true := by
  have hmem : ∀ m, m ∈ s.query clock q ↔ m ∈ s.contents clock ∧ s.looksAt q m = true ∧
      placeOf (s.looksAt q) (s.contents clock) m < q.limit.getD 1000 := by
    intro m
    rw [h.query_eq_take, mem_scan_iff (h.contents_inKeyOrder clock)]
  constructor
  · intro hans m hm hlooks hplace
    exact (hans.sound m ((hmem m).mpr ⟨hm, hlooks, hplace⟩)).2
  · intro hall
    have hsound : ∀ m ∈ s.query clock q, m ∈ s.contents clock ∧ meetsAll q (created m) m = true := by
      intro m hm
      obtain ⟨hin, hlooks, hplace⟩ := (hmem m).mp hm
      exact ⟨hin, hall m hin hlooks hplace⟩
    refine ⟨?_, hsound, ?_⟩
    · rw [h.query_eq_take]
      exact (h.contents_inKeyOrder clock).scan_ids_nodup _ _
    · rw [h.query_eq_take] at hsound ⊢
      rw [Rank.length_take_filter fun m hm => (hsound m hm).2]
      refine congrArg (min _) (List.countP_congr fun m hm => ?_)
      rw [Bool.and_eq_true]
      exact and_iff_right_of_imp (h.looksAt_of_meetsAll hm)

end PersistentStorage

/-- **Queries.**  After any sequences of operations, `query` of both back ends answers with every filter
    exactly when no message the persistent one comes to fails a filter it did not look at, whatever instant
    a record is taken to be created at. -/
theorem query_answers_iff {config : MemoryStoreConfig} {memoryOps : List Retention.Op} {memory : MemoryStorage}
    {diskOps : List PersistentStorage.Op} {disk : PersistentStorage}
    (hids : ∀ op ∈ memoryOps, MemoryStorage.KeepsId op)
    (hmemory : run MemoryStorage.performing (.withConfig config) memoryOps = some memory)
    (hdisk : run PersistentStorage.performing .empty diskOps = some disk)
    (order : IterOrder Entry) (clock : Clock) (q : MessageQuery) (created : StoredMessage → Instant) :
    QueryAnswer StoredMessage.createdAt q memory.contents (memory.query order q) ∧
        QueryAnswer created q (disk.contents clock) (disk.query clock q) ↔
      ∀ m ∈ disk.contents clock, disk.looksAt q m = true →
        placeOf (disk.looksAt q) (disk.contents clock) m < q.limit.getD 1000 →
          meetsAll q (created m) m = true := by
  have hkeyed := MemoryStorage.run_keyed hids hmemory
  rw [and_iff_right (MemoryStorage.query_answer hkeyed order q)]
  exact PersistentStorage.query_answer_iff (PersistentStorage.run_covered hdisk) clock q created

/-- One message in each back end, and the pending messages of another system. -/
theorem query_answers_of_one :
    let q : MessageQuery := { state := some .pending, systemId := some "client2" }
    let memory := (MemoryStorage.withConfig ⟨100, 512, 10⟩).store .listed (.sample 0)
    let disk := PersistentStorage.empty.store ⟨0, 0⟩ (.sample 0)
    QueryAnswer StoredMessage.createdAt q memory.contents (memory.query .listed q) ∧
        QueryAnswer StoredMessage.createdTime q (disk.contents ⟨1, 1⟩) (disk.query ⟨1, 1⟩ q) ↔
      ∀ m ∈ disk.contents ⟨1, 1⟩, disk.looksAt q m = true →
        placeOf (disk.looksAt q) (disk.contents ⟨1, 1⟩) m < q.limit.getD 1000 →
          meetsAll q m.createdTime m = true := by
  intro q memory disk
  have hmemory : run MemoryStorage.performing (.withConfig ⟨100, 512, 10⟩) [.store .listed (.sample 0)] =
    some memory := rfl
  have hdisk : run PersistentStorage.performing .empty [.store ⟨0, 0⟩ (.sample 0)] = some disk := rfl
  refine query_answers_iff (fun op hop => ?_) hmemory hdisk .listed ⟨1, 1⟩ q StoredMessage.createdTime
  rw [List.mem_singleton] at hop
  subst hop
  exact trivial

/-- Asked for the pending messages of another system, the persistent store returns this one's. -/
theorem query_answers_other_system :
    let q : MessageQuery := { state := some .pending, systemId := some "client2" }
    let disk := PersistentStorage.empty.store ⟨0, 0⟩ (.sample 0)
    run PersistentStorage.performing .empty [.store ⟨0, 0⟩ (.sample 0)] = some disk ∧
      ∀ created, ¬ QueryAnswer created q (disk.contents ⟨1, 1⟩) (disk.query ⟨1, 1⟩ q) := by
  intro q disk
  have hrun : run PersistentStorage.performing .empty [.store ⟨0, 0⟩ (.sample 0)] = some disk := rfl
  refine ⟨hrun, fun created hans => ?_⟩
  have hcovered := PersistentStorage.run_covered hrun
  have hmem : persistedToStored ⟨1, 1⟩ (toPersisted ⟨0, 0⟩ (.sample 0)) ∈ disk.contents ⟨1, 1⟩ :=
    hcovered.mem_contents.mpr ⟨_, AList.lookup_insert _, rfl⟩
  have hroom : disk.messages.entries.length ≤ 1000 := by decide +kernel
  have hlooks : disk.looksAt q (persistedToStored ⟨1, 1⟩ (toPersisted ⟨0, 0⟩ (.sample 0))) = true :=
    hcovered.listedUnder hmem (MessageState.ofCode_code .pending)
  have hall := (PersistentStorage.query_answer_iff hcovered ⟨1, 1⟩ q created).mp hans _ hmem hlooks
    (PersistentStorage.placeOf_lt _ hmem hroom)
  unfold meetsAll at hall
  simp only [Bool.and_eq_true] at hall
  exact absurd hall.1.1.1.2 (by decide)

/-! ## Recovery -/

/-- The states a message is recovered from. -/
def recoverable : List MessageState := [.pending, .inFlight, .retrying]

theorem mem_recoverable {st : MessageState} : st ∈ recoverable ↔ st.isTerminal = false := by
  cases st <;> decide

/-- `result` has each message of `content` that is not terminal once, and nothing else. -/
structure Recovers (content result : List StoredMessage) : Prop where
  stored : ∀ m ∈ result, m ∈ content
  once : ∀ m ∈ content, (result.map StoredMessage.id).count m.id = if m.state.isTerminal then 0 else 1

/-- Recovery by one walk for each state. -/
theorem recovers_iff {content : List StoredMessage} {walk : MessageState → List StoredMessage}
    (hids : (content.map StoredMessage.id).Nodup) (hnodup : ∀ st, ((walk st).map StoredMessage.id).Nodup)
    (hsub : ∀ st, ∀ m ∈ walk st, m ∈ content) (meets : MessageState → StoredMessage → Bool)
    (hmeets : ∀ st, ∀ m ∈ content, m ∈ walk st ↔ meets st m = true) :
    Recovers content (recoverable.flatMap walk) ↔
      ∀ m ∈ content, (recoverable.countP fun st => meets st m) = if m.state.isTerminal then 0 else 1 := by
  have hcount : ∀ m ∈ content, ((recoverable.flatMap walk).map StoredMessage.id).count m.id =
      recoverable.countP fun st => meets st m := by
    intro m hm
    rw [List.map_flatMap, Rank.count_flatMap_of_nodup hnodup]
    refine List.countP_congr fun st _ => ?_
    rw [decide_eq_true_eq, ← hmeets st m hm, List.mem_map]
    constructor
    · rintro ⟨m', hm', hid⟩
      rwa [← List.inj_on_of_nodup_map hids (hsub st m' hm') hm hid]
    · exact fun hin => ⟨m, hin, rfl⟩
  constructor
  · intro hrec m hm
    rw [← hcount m hm]
    exact hrec.once m hm
  · intro hall
    refine ⟨fun m hm => ?_, fun m hm => (hcount m hm).trans (hall m hm)⟩
    obtain ⟨st, -, hin⟩ := List.mem_flatMap.mp hm
    exact hsub st m hin

namespace MemoryStorage

theorem getRecoverableMessages_eq (order : IterOrder Entry) (s : MemoryStorage) :
    s.getRecoverableMessages order = recoverable.flatMap fun st => (s.inState order st).take 1000 := by
  have hquery : ∀ st, s.query order { state := some st } = (s.inState order st).take 1000 :=
    fun st => s.query_byState order st 1000
  simp only [getRecoverableMessages, recoverable, hquery, List.flatMap_cons, List.flatMap_nil, List.append_nil,
    List.append_assoc]

/-- The default of the trait recovers everything up to its implicit limit. -/
theorem getRecoverableMessages_iff {s : MemoryStorage} (h : Keyed s) (order : IterOrder Entry) :
    Recovers s.contents (s.getRecoverableMessages order) ↔
      ∀ st ∈ recoverable, (s.contents.countP fun m => m.state = st) ≤ 1000 := by
  have hsub : ∀ st, (s.inState order st).Sublist ((order.arrange s.messages.entries).map fun e => e.2) :=
    fun st => List.filter_sublist
  have hnodup : ∀ st, ((s.inState order st).map StoredMessage.id).Nodup :=
    fun st => (h.arranged_ids_nodup order).sublist ((hsub st).map _)
  have hmem : ∀ st m, m ∈ s.inState order st ↔ m ∈ s.contents ∧ m.state = st := by
    intro st m
    rw [mem_inState, mem_contents]
  have hlength : ∀ st, (s.inState order st).length = s.contents.countP fun m => m.state = st := by
    intro st
    rw [inState, ← List.countP_eq_length_filter, (arrange_perm_contents order s).countP_eq]
  classical
  rw [getRecoverableMessages_eq, recovers_iff h.contents_ids_nodup
    (fun st => (hnodup st).sublist ((List.take_sublist _ _).map _))
    (fun st m hm => ((hmem st m).mp (List.mem_of_mem_take hm)).1)
    (fun st m => decide (m ∈ (s.inState order st).take 1000)) fun st m _ => decide_eq_true_iff.symm]
  constructor
  · intro hall st hst
    rw [← hlength, ← Rank.forall_mem_take_iff (hnodup st).of_map]
    intro m hm
    obtain ⟨hin, hstate⟩ := (hmem st m).mp hm
    by_contra hout
    -- no other walk has the message either
    have hnone : (recoverable.countP fun st' => decide (m ∈ (s.inState order st').take 1000)) = 0 := by
      refine List.countP_eq_zero.mpr fun st' _ => ?_
      rw [decide_eq_true_eq]
      intro hin'
      have hst' := ((hmem st' m).mp (List.mem_of_mem_take hin')).2
      rw [hstate] at hst'
      subst hst'
      exact hout hin'
    have honce := hall m hin
    rw [hnone, hstate, mem_recoverable.mp hst] at honce
    cases honce
  · intro hall m hm
    have hmet : ∀ st ∈ recoverable, decide (m ∈ (s.inState order st).take 1000) = decide (m.state = st) := by
      intro st hst
      rw [List.take_of_length_le (by rw [hlength]; exact hall st hst)]
      exact decide_eq_decide.mpr (((hmem st m).trans (and_iff_right hm)))
    rw [List.countP_congr fun st hst => by rw [hmet st hst]]
    cases m.state <;> rfl

end MemoryStorage

namespace PersistentStorage

/-- The walk of a state in the recovery of the persistent store comes to the message. -/
def recovers (clock : Clock) (s : PersistentStorage) (m : StoredMessage) (state : MessageState) : Bool :=
  s.listedUnder state m && decide (placeOf (s.listedUnder state) (s.contents clock) m < usizeMax)

/-- The persistent store recovers what its index lists. -/
theorem getRecoverableMessages_iff {s : PersistentStorage} (h : Covered s) (clock : Clock) :
    Recovers (s.contents clock) (s.getRecoverableMessages clock) ↔
      ∀ m ∈ s.contents clock, recoverable.countP (s.recovers clock m) = if m.state.isTerminal then 0 else 1 := by
  have hwalks : s.getRecoverableMessages clock = recoverable.flatMap fun st => s.getByState clock st usizeMax := by
    simp only [getRecoverableMessages, recoverable, List.flatMap_cons, List.flatMap_nil, List.append_nil,
      List.append_assoc]
  rw [hwalks, recovers_iff (h.contents_inKeyOrder clock).ids_nodup
    (fun st => h.getByState_ids_nodup clock st usizeMax) (fun st m hm => (h.mem_getByState.mp hm).1)
    fun st m => s.recovers clock m st]
  intro st m hm
  rw [h.mem_getByState, recovers, Bool.and_eq_true, decide_eq_true_eq, and_iff_right hm]

/-- Where ids are stored once the index lists nothing else, so everything is recovered. -/
theorem Indexed.recovers {s : PersistentStorage} (h : Indexed s) (clock : Clock)
    (hroom : s.messages.entries.length ≤ usizeMax) : Recovers (s.contents clock) (s.getRecoverableMessages clock) := by
  have hcovered := h.covered
  refine (getRecoverableMessages_iff hcovered clock).mpr fun m hm => ?_
  have hown : ∀ st ∈ recoverable, s.recovers clock m st = decide (m.state = st) := by
    intro st _
    rw [PersistentStorage.recovers, decide_eq_true (placeOf_lt _ hm hroom), Bool.and_true]
    exact h.listedUnder_eq hm
  rw [List.countP_congr fun st hst => by rw [hown st hst]]
  cases m.state <;> rfl

end PersistentStorage

/-- **Recovery.**  After any sequences of operations, both back ends recover each message that is not
    terminal once, and nothing else, exactly when the in-memory one has no more than a thousand in any state
    it recovers from, and the index of the persistent one lists each such message under one of the three
    states and no terminal message under any. -/
theorem recoverable_messages_iff {config : MemoryStoreConfig} {memoryOps : List Retention.Op}
    {memory : MemoryStorage} {diskOps : List PersistentStorage.Op} {disk : PersistentStorage}
    (hids : ∀ op ∈ memoryOps, MemoryStorage.KeepsId op)
    (hmemory : run MemoryStorage.performing (.withConfig config) memoryOps = some memory)
    (hdisk : run PersistentStorage.performing .empty diskOps = some disk)
    (order : IterOrder Entry) (clock : Clock) :
    Recovers memory.contents (memory.getRecoverableMessages order) ∧
        Recovers (disk.contents clock) (disk.getRecoverableMessages clock) ↔
      (∀ st ∈ recoverable, (memory.contents.countP fun m => m.state = st) ≤ 1000) ∧
        ∀ m ∈ disk.contents clock,
          recoverable.countP (disk.recovers clock m) = if m.state.isTerminal then 0 else 1 := by
  have hkeyed := MemoryStorage.run_keyed hids hmemory
  have hcovered := PersistentStorage.run_covered hdisk
  exact and_congr (MemoryStorage.getRecoverableMessages_iff hkeyed order)
    (PersistentStorage.getRecoverableMessages_iff hcovered clock)

/-- One message in each back end, stored twice in the persistent one. -/
theorem recoverable_messages_of_one :
    let memory := (MemoryStorage.withConfig ⟨1000000, 512, 10⟩).store .listed (.sample 0)
    let disk := (PersistentStorage.empty.store ⟨0, 0⟩ (.sample 0)).store ⟨1, 1⟩
      ((StoredMessage.sample 0).markExpired ⟨1, 1⟩)
    Recovers memory.contents (memory.getRecoverableMessages .listed) ∧
        Recovers (disk.contents ⟨2, 2⟩) (disk.getRecoverableMessages ⟨2, 2⟩) ↔
      (∀ st ∈ recoverable, (memory.contents.countP fun m => m.state = st) ≤ 1000) ∧
        ∀ m ∈ disk.contents ⟨2, 2⟩,
          recoverable.countP (disk.recovers ⟨2, 2⟩ m) = if m.state.isTerminal then 0 else 1 := by
  intro memory disk
  have hmemory : run MemoryStorage.performing (.withConfig ⟨1000000, 512, 10⟩) [.store .listed (.sample 0)] =
    some memory := rfl
  have hdisk : run PersistentStorage.performing .empty
    [.store ⟨0, 0⟩ (.sample 0), .store ⟨1, 1⟩ ((StoredMessage.sample 0).markExpired ⟨1, 1⟩)] = some disk := rfl
  refine recoverable_messages_iff (fun op hop => ?_) hmemory hdisk .listed ⟨2, 2⟩
  rw [List.mem_singleton] at hop
  subst hop
  exact trivial

namespace MemoryStorage

/-- The first `n` messages of the counter, stored one after the other. -/
def filled (n : Nat) : MemoryStorage :=
  ((List.range n).map fun i => Retention.Op.store .listed (.sample i)).foldl perform
    (withConfig ⟨1000000, 512, 10⟩)

theorem sample_id_injective {i j : Nat} (hi : i < 2 ^ 64) (hj : j < 2 ^ 64)
    (h : (StoredMessage.sample i).id = (StoredMessage.sample j).id) : i = j := by
  have hnat := congrArg (fun id : MessageId => id.val.toNat) h
  exact (MessageId.new_toNat hi).symm.trans (hnat.trans (MessageId.new_toNat hj))

/-- Nothing is terminal, so nothing is pruned. -/
theorem get_filled {n : Nat} (hn : n < 2 ^ 64) :
    (∀ i < n, (filled n).get (StoredMessage.sample i).id = some (.sample i)) ∧
      ∀ id m, (filled n).get id = some m → m.state = .pending := by
  induction n with
  | zero => exact ⟨fun i hi => absurd hi (Nat.not_lt_zero i), fun id m h => nomatch h⟩
  | succ n ih =>
    obtain ⟨hall, hpending⟩ := ih (Nat.lt_of_succ_lt hn)
    have hget : ∀ id, (filled (n + 1)).get id =
        if id = (StoredMessage.sample n).id then some (.sample n) else (filled n).get id := by
      intro id
      have hvictims : ¬ ((filled n).atLimit = true ∧ id ∈ (filled n).victims .listed) := by
        rintro ⟨-, hv⟩
        obtain ⟨m, hm, hterm⟩ := terminal_of_mem_victims hv
        rw [hpending id m hm] at hterm
        cases hterm
      have hstep : filled (n + 1) = (filled n).store .listed (.sample n) := by
        rw [filled, List.range_succ, List.map_append, List.foldl_append]
        rfl
      rw [hstep, get_store, if_neg hvictims]
    constructor
    · intro i hi
      rw [hget]
      rcases Nat.lt_succ_iff_lt_or_eq.mp hi with hlt | rfl
      · have hne : (StoredMessage.sample i).id ≠ (StoredMessage.sample n).id := by
          intro hid
          have heq := sample_id_injective (by omega) (by omega) hid
          omega
        rw [if_neg hne]
        exact hall i hlt
      · exact if_pos rfl
    · intro id m hm
      rw [hget] at hm
      split at hm
      · cases hm
        rfl
      · exact hpending id m hm

theorem le_countP_filled {n : Nat} (hn : n < 2 ^ 64) :
    n ≤ (filled n).contents.countP fun m => m.state = .pending := by
  obtain ⟨hall, hpending⟩ := get_filled hn
  have hids : ((List.range n).map StoredMessage.sample).Nodup := by
    refine (List.nodup_range).map_on fun i hi j hj heq => ?_
    exact sample_id_injective (Nat.lt_trans (List.mem_range.mp hi) hn)
      (Nat.lt_trans (List.mem_range.mp hj) hn) (congrArg StoredMessage.id heq)
  have hsub : (List.range n).map StoredMessage.sample ⊆ (filled n).contents := by
    intro m hm
    obtain ⟨i, hi, rfl⟩ := List.mem_map.mp hm
    exact mem_contents.mpr ⟨_, hall i (List.mem_range.mp hi)⟩
  have hcount : ((filled n).contents.countP fun m => m.state = .pending) = (filled n).contents.length := by
    refine List.countP_eq_length.mpr fun m hm => ?_
    obtain ⟨id, hget⟩ := mem_contents.mp hm
    exact decide_eq_true (hpending id m hget)
  have hlength := (List.subperm_of_subset hids hsub).length_le
  rw [List.length_map, List.length_range] at hlength
  rw [hcount]
  exact hlength

end MemoryStorage

/-- Of 1001 pending messages in memory, one is not recovered. -/
theorem recoverable_messages_over_limit :
    let memory := MemoryStorage.filled 1001
    run MemoryStorage.performing (.withConfig ⟨1000000, 512, 10⟩)
        ((List.range 1001).map fun i => .store .listed (.sample i)) = some memory ∧
      ∀ order, ¬ Recovers memory.contents (memory.getRecoverableMessages order) := by
  intro memory
  have hrun : run MemoryStorage.performing (.withConfig ⟨1000000, 512, 10⟩)
      ((List.range 1001).map fun i => .store .listed (.sample i)) = some memory :=
    MemoryStorage.run_performing _ _
  refine ⟨hrun, fun order hrec => ?_⟩
  have hkeyed : MemoryStorage.Keyed memory := by
    refine MemoryStorage.run_keyed (fun op hop => ?_) hrun
    obtain ⟨i, -, rfl⟩ := List.mem_map.mp hop
    exact trivial
  have hfew := (MemoryStorage.getRecoverableMessages_iff hkeyed order).mp hrec .pending List.mem_cons_self
  exact absurd (Nat.le_trans (MemoryStorage.le_countP_filled (by decide)) hfew) (by decide)

end Smppd.Store
