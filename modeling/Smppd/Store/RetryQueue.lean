/-
  The RETRY QUEUE: `get_ready_for_retry` against the time each retry is scheduled for.

  `mark_retry` sets the time of the next attempt.  The in-memory back end keeps it in the message; the
  persistent one writes `retry_at_epoch_ms: None` whatever the message says.  To compare them the machine
  below carries the SCHEDULE beside the storage, as a ghost that no operation reads: the time the callers
  have asked for, for each id.

  * In memory the schedule is what the messages say (`run_agrees`), so what is returned is what is due.
  * The persistent back end returns the first thousand messages its index lists under `Retrying`, so it is
    right exactly where these are the messages that are due (`WalkIsDue`).
-/
import Smppd.Store.Contents

set_option linter.unusedVariables false

namespace Smppd.Store.RetryQueue

open Table Machine

/-! ## The schedule -/

/-- A storage, and the time each message is scheduled to be retried at. -/
structure Scheduled (S : Type) where
  storage : S
  schedule : MessageId → Option Instant

/-- Storing and updating messages. -/
inductive Act where
  | store (env : StoreEnv) (message : StoredMessage)
  | update (env : StoreEnv) (id : MessageId) (f : PersistentStorage.Keeping)

section Machine

variable {S : Type} [Storage S]

/-- The schedule of a message once a closure has run on it: the closure finds the time scheduled so far, and
    may leave another. -/
def reschedule (env : StoreEnv) (id : MessageId) (f : StoredMessage → StoredMessage) (s : Scheduled S) :
    Option Instant :=
  match Storage.get env id s.storage with
  | some m => (f { m with retryAt := s.schedule id }).retryAt
  | none => s.schedule id

/-- One operation. -/
def perform (s : Scheduled S) : Act → Scheduled S
  | .store env message =>
    { storage := Storage.store env message s.storage
      schedule := fun id => if id = message.id then message.retryAt else s.schedule id }
  | .update env id f =>
    { storage := (Storage.update env id f.apply s.storage).1
      schedule := fun id' => if id' = id then reschedule env id f.apply s else s.schedule id' }

/-- The step of the machine. -/
def step (s : Scheduled S) (act : Act) : Option (Scheduled S) := some (perform s act)

theorem run_perform (acts : List Act) (s : Scheduled S) : run step s acts = some (acts.foldl perform s) := by
  induction acts generalizing s with
  | nil => rfl
  | cons act acts ih => exact ih (perform s act)

/-- The closure `|m| m.mark_retry(delay, code, error)`. -/
def retryLater (clock : Clock) (delay : Duration) (code : Option UInt32) (error : String) :
    PersistentStorage.Keeping :=
  ⟨.markRetry clock delay code error, fun _ => rfl⟩

/-- `mark_retry` schedules the next attempt after the delay. -/
theorem schedule_markRetry {s : Scheduled S} {env : StoreEnv} {id : MessageId} {m : StoredMessage}
    (hget : Storage.get env id s.storage = some m) (clock : Clock) (delay : Duration) (code : Option UInt32)
    (error : String) :
    (perform s (.update env id (retryLater clock delay code error))).schedule id =
      some (clock.now + (delay : Int)) := by
  show (if id = id then reschedule env id _ s else s.schedule id) = _
  rw [if_pos rfl, reschedule, hget]
  rfl

end Machine

/-- The time scheduled has been reached. -/
def Due (schedule : MessageId → Option Instant) (now : Instant) (m : StoredMessage) : Prop :=
  ∃ t, schedule m.id = some t ∧ t ≤ now

/-- `result` is what is due for a retry among the messages of `content`. -/
structure RetryAnswer (schedule : MessageId → Option Instant) (now : Instant)
    (content result : List StoredMessage) : Prop where
  nodup : (result.map StoredMessage.id).Nodup
  exact : ∀ m, m ∈ result ↔ m ∈ content ∧ m.state = .retrying ∧ Due schedule now m

/-! ## The in-memory back end -/

/-- Messages stand under their own ids and say when they are scheduled. -/
structure Agrees (s : Scheduled MemoryStorage) : Prop where
  keyed : MemoryStorage.Keyed s.storage
  agrees : ∀ id m, s.storage.get id = some m → s.schedule id = m.retryAt

theorem agrees_perform {s : Scheduled MemoryStorage} (h : Agrees s) (act : Act) : Agrees (perform s act) := by
  cases act with
  | store env message =>
    refine ⟨MemoryStorage.keyed_store h.keyed env.order message, ?_⟩
    intro id m hget
    change (s.storage.store env.order message).get id = some m at hget
    rw [MemoryStorage.get_store] at hget
    show (if id = message.id then message.retryAt else s.schedule id) = m.retryAt
    split at hget
    · rename_i hid
      cases hget
      exact if_pos hid
    · rename_i hid
      split at hget
      · cases hget
      · rw [if_neg hid]
        exact h.agrees id m hget
  | update env id f =>
    refine ⟨MemoryStorage.keyed_update h.keyed id f.keepsId, ?_⟩
    intro id' m hget
    change (s.storage.update id f.apply).1.get id' = some m at hget
    rw [MemoryStorage.get_update] at hget
    show (if id' = id then reschedule env id f.apply s else s.schedule id') = m.retryAt
    split at hget
    · rename_i hid
      obtain ⟨m₀, hm₀, rfl⟩ := Option.map_eq_some_iff.mp hget
      rw [hid] at hm₀
      have hold : Storage.get env id s.storage = some m₀ := hm₀
      -- the closure finds the message just as it is stored
      rw [if_pos hid, reschedule, hold, h.agrees id m₀ hm₀]
    · rename_i hid
      rw [if_neg hid]
      exact h.agrees id' m hget

/-- After every run the schedule is what the messages say. -/
theorem run_agrees {config : MemoryStoreConfig} {acts : List Act} {s : Scheduled MemoryStorage}
    (hrun : run step ⟨.withConfig config, fun _ => none⟩ acts = some s) : Agrees s := by
  refine run_inv (fun s act s' h hstep => ?_) ⟨fun id m h => ?_, fun id m h => ?_⟩ hrun
  · obtain rfl := Option.some.inj hstep
    exact agrees_perform h act
  · cases h
  · cases h

theorem Agrees.answer {s : Scheduled MemoryStorage} (h : Agrees s) (order : IterOrder Entry) (clock : Clock) :
    RetryAnswer s.schedule clock.now s.storage.contents (s.storage.getReadyForRetry order clock) := by
  constructor
  · exact (h.keyed.arranged_ids_nodup order).sublist (List.filter_sublist.map _)
  · intro m
    rw [MemoryStorage.getReadyForRetry, List.mem_filter,
      (MemoryStorage.arrange_perm_contents order s.storage).mem_iff, Bool.and_eq_true, decide_eq_true_eq]
    refine and_congr_right fun hm => and_congr_right fun _ => ?_
    obtain ⟨id, hget⟩ := MemoryStorage.mem_contents.mp hm
    rw [Due, h.keyed id m hget, h.agrees id m hget]
    cases m.retryAt with
    | none => simp
    | some t => simp

/-! ## The persistent back end -/

/-- The first thousand messages listed under `Retrying` are those that are due. -/
structure WalkIsDue (schedule : MessageId → Option Instant) (clock : Clock) (s : PersistentStorage) : Prop where
  current : ∀ m ∈ s.contents clock, s.listedUnder .retrying m = true →
    placeOf (s.listedUnder .retrying) (s.contents clock) m < 1000 → m.state = .retrying
  due : ∀ m ∈ s.contents clock, m.state = .retrying →
    (placeOf (s.listedUnder .retrying) (s.contents clock) m < 1000 ↔ Due schedule clock.now m)

theorem covered_perform {s : Scheduled PersistentStorage} (h : s.storage.Covered) (act : Act) :
    (perform s act).storage.Covered := by
  cases act with
  | store env message => exact (h.others message.id).persist
  | update env id f => exact PersistentStorage.covered_update h env.clock id f

theorem run_covered {acts : List Act} {s : Scheduled PersistentStorage}
    (hrun : run step ⟨.empty, fun _ => none⟩ acts = some s) : s.storage.Covered := by
  have hkept : ∀ (s : Scheduled PersistentStorage) act s', s.storage.Covered → step s act = some s' →
      s'.storage.Covered := by
    intro s act s' h hstep
    obtain rfl := Option.some.inj hstep
    exact covered_perform h act
  exact run_inv hkept PersistentStorage.covered_empty hrun

theorem retry_answer_iff {s : PersistentStorage} (h : s.Covered) (schedule : MessageId → Option Instant)
    (clock : Clock) :
    RetryAnswer schedule clock.now (s.contents clock) (s.getReadyForRetry clock) ↔
      WalkIsDue schedule clock s := by
  have hmem : ∀ m, m ∈ s.getReadyForRetry clock ↔ m ∈ s.contents clock ∧ s.listedUnder .retrying m = true ∧
      placeOf (s.listedUnder .retrying) (s.contents clock) m < 1000 := fun m => h.mem_getByState
  constructor
  · intro hans
    refine ⟨fun m hm hlisted hplace => ((hans.exact m).mp ((hmem m).mpr ⟨hm, hlisted, hplace⟩)).2.1, ?_⟩
    intro m hm hstate
    constructor
    · intro hplace
      exact ((hans.exact m).mp ((hmem m).mpr ⟨hm, h.listedUnder hm hstate, hplace⟩)).2.2
    · intro hdue
      exact ((hmem m).mp ((hans.exact m).mpr ⟨hm, hstate, hdue⟩)).2.2
  · intro hwalk
    refine ⟨h.getByState_ids_nodup clock .retrying 1000, fun m => ?_⟩
    rw [hmem]
    constructor
    · rintro ⟨hm, hlisted, hplace⟩
      have hstate := hwalk.current m hm hlisted hplace
      exact ⟨hm, hstate, (hwalk.due m hm hstate).mp hplace⟩
    · rintro ⟨hm, hstate, hdue⟩
      exact ⟨hm, h.listedUnder hm hstate, (hwalk.due m hm hstate).mpr hdue⟩

/-! ## Both -/

/-- **The retry queue.**  However messages are stored and updated, both back ends return what is due for a
    retry exactly where the first thousand messages that the persistent one lists under `Retrying` are what
    is due.  What `mark_retry` schedules, in either of them, is due after its delay. -/
theorem ready_for_retry_iff {config : MemoryStoreConfig} {memoryActs : List Act} {memory : Scheduled MemoryStorage}
    {diskActs : List Act} {disk : Scheduled PersistentStorage}
    (hmemory : run step ⟨.withConfig config, fun _ => none⟩ memoryActs = some memory)
    (hdisk : run step ⟨.empty, fun _ => none⟩ diskActs = some disk)
    (order : IterOrder Entry) (clock clock' : Clock) :
    (RetryAnswer memory.schedule clock.now memory.storage.contents (memory.storage.getReadyForRetry order clock) ∧
          RetryAnswer disk.schedule clock'.now (disk.storage.contents clock')
            (disk.storage.getReadyForRetry clock') ↔
        WalkIsDue disk.schedule clock' disk.storage) ∧
      (∀ env id m, memory.storage.get id = some m → ∀ at_ delay code error,
        (perform memory (.update env id (retryLater at_ delay code error))).schedule id =
          some (at_.now + (delay : Int))) ∧
      ∀ env id m, disk.storage.get env.clock id = some m → ∀ at_ delay code error,
        (perform disk (.update env id (retryLater at_ delay code error))).schedule id =
          some (at_.now + (delay : Int)) := by
  refine ⟨?_, fun _ _ _ hget => schedule_markRetry hget, fun _ _ _ hget => schedule_markRetry hget⟩
  rw [and_iff_right ((run_agrees hmemory).answer order clock)]
  exact retry_answer_iff (run_covered hdisk) disk.schedule clock'

/-- A message to be retried in a minute, in each back end. -/
def retryInAMinute : List Act :=
  let env : StoreEnv := ⟨⟨0, 0⟩, .listed⟩
  [.store env (.sample 0),
    .update env (StoredMessage.sample 0).id (retryLater ⟨0, 0⟩ (fromSecs 60) none "timeout")]

theorem get_stored : (PersistentStorage.empty.store ⟨0, 0⟩ (.sample 0)).get ⟨0, 0⟩ (StoredMessage.sample 0).id =
    some (PersistentStorage.reload ⟨0, 0⟩ ⟨0, 0⟩ (.sample 0)) :=
  (PersistentStorage.get_persist ..).trans (if_pos rfl)

theorem ready_for_retry_in_a_minute :
    let memory := retryInAMinute.foldl perform ⟨MemoryStorage.withConfig ⟨1000000, 512, 10⟩, fun _ => none⟩
    let disk := retryInAMinute.foldl perform ⟨PersistentStorage.empty, fun _ => none⟩
    RetryAnswer memory.schedule 1 memory.storage.contents (memory.storage.getReadyForRetry .listed ⟨1, 1⟩) ∧
        RetryAnswer disk.schedule 1 (disk.storage.contents ⟨1, 1⟩) (disk.storage.getReadyForRetry ⟨1, 1⟩) ↔
      WalkIsDue disk.schedule ⟨1, 1⟩ disk.storage := by
  intro memory disk
  have hmemory : run step ⟨.withConfig ⟨1000000, 512, 10⟩, fun _ => none⟩ retryInAMinute = some memory :=
    run_perform _ _
  have hdisk : run step ⟨.empty, fun _ => none⟩ retryInAMinute = some disk := run_perform _ _
  exact (ready_for_retry_iff hmemory hdisk .listed ⟨1, 1⟩ ⟨1, 1⟩).1

/-- The persistent store returns the message at once. -/
theorem ready_for_retry_at_once :
    let disk := retryInAMinute.foldl perform ⟨PersistentStorage.empty, fun _ => none⟩
    run step ⟨.empty, fun _ => none⟩ retryInAMinute = some disk ∧
      ¬ RetryAnswer disk.schedule 1 (disk.storage.contents ⟨1, 1⟩) (disk.storage.getReadyForRetry ⟨1, 1⟩) := by
  intro disk
  have hrun : run step ⟨.empty, fun _ => none⟩ retryInAMinute = some disk := run_perform _ _
  refine ⟨hrun, fun hans => ?_⟩
  have hcovered := run_covered hrun
  have hget : disk.storage.get ⟨1, 1⟩ (StoredMessage.sample 0).id = some (PersistentStorage.reload ⟨0, 0⟩ ⟨1, 1⟩
      ((PersistentStorage.reload ⟨0, 0⟩ ⟨0, 0⟩ (.sample 0)).markRetry ⟨0, 0⟩ (fromSecs 60) none "timeout")) := by
    have hempty : (PersistentStorage.empty.store ⟨0, 0⟩ (.sample 0)).Covered :=
      (PersistentStorage.covered_empty.others _).persist
    exact (hempty.get_update ..).trans (by rw [if_pos rfl, get_stored]; rfl)
  obtain ⟨hmem, -⟩ := hcovered.get_eq_some_iff.mp hget
  have hroom : disk.storage.messages.entries.length ≤ 1000 := by decide +kernel
  have hwalk := (retry_answer_iff hcovered disk.schedule ⟨1, 1⟩).mp hans
  obtain ⟨t, ht, hle⟩ := (hwalk.due _ hmem (MessageState.ofCode_code .retrying)).mp
    (PersistentStorage.placeOf_lt _ hmem hroom)
  -- it is scheduled for a minute after the start
  have hsched : disk.schedule (StoredMessage.sample 0).id = some ((0 : Int) + (fromSecs 60 : Int)) :=
    schedule_markRetry (S := PersistentStorage) (s := ⟨_, _⟩) get_stored ⟨0, 0⟩ (fromSecs 60) none "timeout"
  obtain rfl := Option.some.inj (ht.symm.trans hsched)
  exact absurd hle (by decide)

end Smppd.Store.RetryQueue
