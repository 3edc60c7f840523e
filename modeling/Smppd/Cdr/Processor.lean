/-
  The CDR subsystem (`src/cdr/mod.rs`): handles that submit records to one channel, and a processor that takes them
  from it and gives each to all the writers, one after the other.

  A writer may fail, and what its write meets (the date, the file system) is not up to the processor.  `serves_run`
  says that nothing of that matters to the others: in whatever order tasks submit, wait for room and are refused, and
  whatever comes of the writes, each writer is given the records that were accepted, in the order in which they were
  accepted and each once, and is what it would be if it had been alone.

  `MemoryCdrWriter` (`src/cdr/writer.rs`) keeps the last of them.
-/
import Smppd.Cdr.Types
import Smppd.Lib.Recent
import Smppd.Lib.Record
import Smppd.Lib.Table

namespace Smppd.Cdr

open Machine Record Table

/-! ## The processor -/

/-- CDR writer errors. -/
inductive CdrError where
  | io (error : String)
  | serialization (error : String)
  | unavailable

/-- The trait `CdrWriter`: what a write meets, and what comes of it. -/
structure CdrWriter (Env Writer : Type) where
  write : Env → Cdr → Writer → Except CdrError Unit × Writer

/-- `mpsc::channel(10_000)`. -/
def channelSize : Nat := 10000

/-- The handles and the processor; `Task` are the tasks that have a handle. -/
structure CdrSystem (Task : Type) [DecidableEq Task] (Writer : Type) where
  /-- The calls of `submit` that wait for room. -/
  sending : Tbl Task Cdr
  rx : List Cdr
  /-- The last handle was dropped. -/
  closed : Bool
  /-- The record that is being processed, and how many of the writers have had it. -/
  current : Option (Cdr × Nat)
  writers : List Writer

/-- What is seen of the subsystem. -/
inductive ProcessorEvent (Task Env : Type) where
  | submitted (task : Task) (cdr : Cdr)
  /-- The record is in the channel. -/
  | accepted (task : Task) (cdr : Cdr)
  /-- The caller did not wait until there was room. -/
  | cancelled (task : Task) (cdr : Cdr)
  /-- "failed to submit CDR (non-blocking)". -/
  | refused (task : Task) (cdr : Cdr)
  | processing (cdr : Cdr)
  /-- A writer was given a record, and either wrote it or did not. -/
  | written (writer : Nat) (env : Env) (cdr : Cdr) (isOk : Bool)

/-- What can happen next. -/
inductive ProcessorStep (Task Env : Type) where
  /-- `CdrHandle::submit` is called. -/
  | submit (task : Task) (cdr : Cdr)
  /-- Its `send` has got room. -/
  | sent (task : Task)
  /-- The call is dropped while it waits. -/
  | cancel (task : Task)
  /-- `CdrHandle::try_submit`, which may find room or not. -/
  | trySubmit (task : Task) (cdr : Cdr) (room : Bool)
  /-- The last handle is dropped. -/
  | drop
  /-- `rx.recv()` has a record. -/
  | recv
  /-- The next writer is given the record. -/
  | write (env : Env)

variable {Task : Type} [DecidableEq Task] {Env Writer : Type} (trait : CdrWriter Env Writer)

namespace CdrSystem

/-- `start`. -/
def start (writers : List Writer) : CdrSystem Task Writer := ⟨∅, [], false, none, writers⟩

/-- The loop over the writers, at one of them. -/
def atWriter (self : CdrSystem Task Writer) (cdr : Cdr) (n : Nat) : Option (Cdr × Nat) :=
  if n < self.writers.length then some (cdr, n) else none

/-- One step.  A `send` that waits may have been promised the room that a `try_send` does not get. -/
def step (self : CdrSystem Task Writer) :
    ProcessorStep Task Env → Option (List (ProcessorEvent Task Env) × CdrSystem Task Writer)
  | .submit task cdr =>
    if self.closed = false ∧ self.sending.lookup task = none then
      some ([.submitted task cdr], { self with sending := self.sending.insert task cdr })
    else none
  | .sent task =>
    if self.rx.length < channelSize then
      (self.sending.lookup task).map fun cdr =>
        ([.accepted task cdr], { self with sending := self.sending.erase task, rx := self.rx ++ [cdr] })
    else none
  | .cancel task =>
    (self.sending.lookup task).map fun cdr =>
      ([.cancelled task cdr], { self with sending := self.sending.erase task })
  | .trySubmit task cdr true =>
    if self.closed = false ∧ self.sending.lookup task = none ∧ self.rx.length < channelSize then
      some ([.submitted task cdr, .accepted task cdr], { self with rx := self.rx ++ [cdr] })
    else none
  | .trySubmit task cdr false =>
    if self.closed = false ∧ self.sending.lookup task = none ∧
        channelSize ≤ self.rx.length + self.sending.keys.length then
      some ([.submitted task cdr, .refused task cdr], self)
    else none
  | .drop => if self.closed = false ∧ self.sending.keys = [] then some ([], { self with closed := true }) else none
  | .recv =>
    match self.current, self.rx with
    | none, cdr :: rx => some ([.processing cdr], { self with rx, current := self.atWriter cdr 0 })
    | _, _ => none
  | .write env =>
    match self.current with
    | some (cdr, n) =>
      (self.writers[n]?).map fun writer =>
        let (result, writer) := trait.write env cdr writer
        ([.written n env cdr result.isOk],
          { self with writers := self.writers.set n writer, current := self.atWriter cdr (n + 1) })
    | none => none

/-- The loop has ended: the channel is closed, and nothing is left of it. -/
structure Stopped (system : CdrSystem Task Writer) : Prop where
  closed : system.closed = true
  rx : system.rx = []
  current : system.current = none

end CdrSystem

/-! ## Reading a record -/

/-- The records that went into the channel. -/
def accepted (events : List (ProcessorEvent Task Env)) : List Cdr :=
  events.filterMap fun
    | .accepted _ cdr => some cdr
    | _ => none

/-- What a writer was given, and what it met. -/
def given (n : Nat) (events : List (ProcessorEvent Task Env)) : List (Env × Cdr) :=
  events.filterMap fun
    | .written n' env cdr _ => if n' = n then some (env, cdr) else none
    | _ => none

/-- What a task has submitted. -/
def submittedBy (task : Task) (events : List (ProcessorEvent Task Env)) : List Cdr :=
  events.filterMap fun
    | .submitted task' cdr => if task' = task then some cdr else none
    | _ => none

/-- What was accepted of that, refused or given up. -/
def settledBy (task : Task) (events : List (ProcessorEvent Task Env)) : List Cdr :=
  events.filterMap fun
    | .accepted task' cdr | .refused task' cdr | .cancelled task' cdr => if task' = task then some cdr else none
    | _ => none

/-- What a writer becomes. -/
def alone (writer : Writer) (given : List (Env × Cdr)) : Writer :=
  given.foldl (fun writer g => (trait.write g.1 g.2 writer).2) writer

/-! ## Every writer is served -/

/-- What the writer still has to be given of the record at hand. -/
def CdrSystem.due (self : CdrSystem Task Writer) (n : Nat) : List Cdr :=
  match self.current with
  | some (cdr, k) => if k ≤ n then [cdr] else []
  | none => []

/-- **The invariant** of the writers. -/
structure Serving (initial : List Writer) (s : CdrSystem Task Writer × List (ProcessorEvent Task Env)) : Prop where
  capacity : s.1.rx.length ≤ channelSize
  writers : s.1.writers.length = initial.length
  current : ∀ cdr n, s.1.current = some (cdr, n) → n < initial.length
  /-- What went into the channel has been given to the writer, or will be. -/
  served : ∀ n, n < initial.length → (given n s.2).map Prod.snd ++ s.1.due n ++ s.1.rx = accepted s.2
  alone : ∀ n writer, initial[n]? = some writer → s.1.writers[n]? = some (alone trait writer (given n s.2))

/-- What a task has submitted is settled, up to what it waits with; and nobody waits in the end. -/
structure Settling (s : CdrSystem Task Writer × List (ProcessorEvent Task Env)) : Prop where
  tasks : ∀ task, settledBy task s.2 ++ (s.1.sending.lookup task).toList = submittedBy task s.2
  closed : s.1.closed = true → s.1.sending = ∅

section Appending

omit [DecidableEq Task]

theorem accepted_append (events more : List (ProcessorEvent Task Env)) :
    accepted (events ++ more) = accepted events ++ accepted more := List.filterMap_append

theorem given_append (n : Nat) (events more : List (ProcessorEvent Task Env)) :
    given n (events ++ more) = given n events ++ given n more := List.filterMap_append

end Appending

theorem submittedBy_append (task : Task) (events more : List (ProcessorEvent Task Env)) :
    submittedBy task (events ++ more) = submittedBy task events ++ submittedBy task more := List.filterMap_append

theorem settledBy_append (task : Task) (events more : List (ProcessorEvent Task Env)) :
    settledBy task (events ++ more) = settledBy task events ++ settledBy task more := List.filterMap_append

section Steps

variable {trait} {initial : List Writer} {self next : CdrSystem Task Writer} {label : ProcessorStep Task Env}
  {seen events : List (ProcessorEvent Task Env)}

/-- What one task has done, and waits with. -/
theorem Settling.append (h : Settling (self, events)) (task : Task)
    (hnew : settledBy task seen ++ (next.sending.lookup task).toList =
      (self.sending.lookup task).toList ++ submittedBy task seen) :
    settledBy task (events ++ seen) ++ (next.sending.lookup task).toList = submittedBy task (events ++ seen) := by
  have htask : settledBy task events ++ (self.sending.lookup task).toList = submittedBy task events := h.tasks task
  rw [settledBy_append, submittedBy_append, ← htask, List.append_assoc, hnew, List.append_assoc]

/-- **One step of the tasks.** -/
theorem settling_step (h : Settling (self, events)) (hstep : self.step trait label = some (seen, next)) :
    Settling (next, events ++ seen) := by
  cases label with
  | submit task cdr =>
    obtain ⟨⟨hopen, hnone⟩, heq⟩ := Option.ite_none_right_eq_some.mp hstep
    obtain ⟨rfl, rfl⟩ := Prod.mk.inj (Option.some.inj heq)
    refine ⟨fun task' => h.append task' ?_, fun hclosed => (nomatch hopen.symm.trans hclosed)⟩
    by_cases hsame : task' = task
    · subst hsame
      simp [settledBy, submittedBy, hnone]
    · simp [settledBy, submittedBy, AList.lookup_insert_ne hsame, Ne.symm hsame]
  | sent task =>
    obtain ⟨-, heq⟩ := Option.ite_none_right_eq_some.mp hstep
    obtain ⟨cdr, hsending, heq⟩ := Option.map_eq_some_iff.mp heq
    obtain ⟨rfl, rfl⟩ := Prod.mk.inj heq
    refine ⟨fun task' => h.append task' ?_, fun hclosed => ?_⟩
    · by_cases hsame : task' = task
      · subst hsame
        simp [settledBy, submittedBy, hsending]
      · simp [settledBy, submittedBy, AList.lookup_erase_ne hsame, Ne.symm hsame]
    · rw [h.closed hclosed] at hsending
      exact nomatch hsending
  | cancel task =>
    obtain ⟨cdr, hsending, heq⟩ := Option.map_eq_some_iff.mp hstep
    obtain ⟨rfl, rfl⟩ := Prod.mk.inj heq
    refine ⟨fun task' => h.append task' ?_, fun hclosed => ?_⟩
    · by_cases hsame : task' = task
      · subst hsame
        simp [settledBy, submittedBy, hsending]
      · simp [settledBy, submittedBy, AList.lookup_erase_ne hsame, Ne.symm hsame]
    · rw [h.closed hclosed] at hsending
      exact nomatch hsending
  | trySubmit task cdr room =>
    cases room with
    | true =>
      obtain ⟨⟨-, hnone, -⟩, heq⟩ := Option.ite_none_right_eq_some.mp hstep
      obtain ⟨rfl, rfl⟩ := Prod.mk.inj (Option.some.inj heq)
      refine ⟨fun task' => h.append task' ?_, h.closed⟩
      by_cases hsame : task' = task
      · subst hsame
        simp [settledBy, submittedBy, hnone]
      · simp [settledBy, submittedBy, Ne.symm hsame]
    | false =>
      obtain ⟨⟨-, hnone, -⟩, heq⟩ := Option.ite_none_right_eq_some.mp hstep
      obtain ⟨rfl, rfl⟩ := Prod.mk.inj (Option.some.inj heq)
      refine ⟨fun task' => h.append task' ?_, h.closed⟩
      by_cases hsame : task' = task
      · subst hsame
        simp [settledBy, submittedBy, hnone]
      · simp [settledBy, submittedBy, Ne.symm hsame]
  | drop =>
    obtain ⟨⟨-, hkeys⟩, heq⟩ := Option.ite_none_right_eq_some.mp hstep
    obtain ⟨rfl, rfl⟩ := Prod.mk.inj (Option.some.inj heq)
    refine ⟨fun task' => h.append task' (by simp [settledBy, submittedBy]), fun _ => ?_⟩
    exact AList.ext (List.map_eq_nil_iff.mp hkeys)
  | recv =>
    simp only [CdrSystem.step] at hstep
    split at hstep
    · obtain ⟨rfl, rfl⟩ := Prod.mk.inj (Option.some.inj hstep)
      exact ⟨fun task' => h.append task' (by simp [settledBy, submittedBy]), h.closed⟩
    · cases hstep
  | write env =>
    simp only [CdrSystem.step] at hstep
    split at hstep
    · obtain ⟨writer, -, heq⟩ := Option.map_eq_some_iff.mp hstep
      obtain ⟨rfl, rfl⟩ := Prod.mk.inj heq
      exact ⟨fun task' => h.append task' (by simp [settledBy, submittedBy]), h.closed⟩
    · cases hstep

/-- Records go into the channel. -/
theorem Serving.fill (h : Serving trait initial (self, events)) {more : List Cdr} {next : CdrSystem Task Writer}
    (hrx : next.rx = self.rx ++ more) (hwriters : next.writers = self.writers) (hcurrent : next.current = self.current)
    (hcapacity : (self.rx ++ more).length ≤ channelSize) (haccepted : accepted seen = more)
    (hgiven : ∀ n, given n seen = []) : Serving trait initial (next, events ++ seen) := by
  refine ⟨hrx ▸ hcapacity, hwriters ▸ h.writers, hcurrent ▸ h.current, fun n hn => ?_, fun n writer hn => ?_⟩
  · have hdue : next.due n = self.due n := by rw [CdrSystem.due, CdrSystem.due, hcurrent]
    show _ ++ next.due n ++ next.rx = _
    rw [given_append, hgiven, List.append_nil, accepted_append, haccepted, hdue, hrx, ← h.served n hn,
      List.append_assoc _ self.rx]
  · show next.writers[n]? = _
    rw [given_append, hgiven, List.append_nil, hwriters]
    exact h.alone n writer hn

/-- The processor takes the next record. -/
theorem Serving.recv (h : Serving trait initial (self, events)) {cdr : Cdr} {rx : List Cdr} (hcurrent : self.current = none)
    (hrx : self.rx = cdr :: rx) :
    Serving trait initial ({ self with rx, current := self.atWriter cdr 0 }, events ++ [.processing cdr]) := by
  refine ⟨?_, h.writers, fun cdr' n hn => ?_, fun n hn => ?_, fun n writer hn => ?_⟩
  · have hcapacity := h.capacity
    change self.rx.length ≤ channelSize at hcapacity
    rw [hrx] at hcapacity
    exact Nat.le_of_succ_le hcapacity
  · obtain ⟨hlt, heq⟩ := Option.ite_none_right_eq_some.mp hn
    obtain ⟨-, rfl⟩ := Prod.mk.inj (Option.some.inj heq)
    exact h.writers ▸ hlt
  · have hsome : self.atWriter cdr 0 = some (cdr, 0) := if_pos (h.writers.symm ▸ Nat.zero_lt_of_lt hn)
    have hserved := h.served n hn
    rw [accepted_append, given_append]
    simp only [CdrSystem.due, hcurrent, hrx] at hserved
    simp only [CdrSystem.due, hsome, Nat.zero_le, if_true, ← hserved]
    simp [given, accepted]
  · rw [given_append]
    simpa [given] using h.alone n writer hn

/-- A writer is given the record at hand, and the others are not. -/
theorem Serving.write (h : Serving trait initial (self, events)) {cdr : Cdr} {n : Nat} {writer : Writer}
    (hcurrent : self.current = some (cdr, n)) (hwriter : self.writers[n]? = some writer) (env : Env) :
    Serving trait initial
      ({ self with writers := self.writers.set n (trait.write env cdr writer).2,
                   current := self.atWriter cdr (n + 1) },
        events ++ [.written n env cdr (trait.write env cdr writer).1.isOk]) := by
  refine ⟨h.capacity, (List.length_set ..).trans h.writers, fun cdr' n' hn' => ?_, fun k hk => ?_, fun k writer' hk => ?_⟩
  · obtain ⟨hlt, heq⟩ := Option.ite_none_right_eq_some.mp hn'
    obtain ⟨-, rfl⟩ := Prod.mk.inj (Option.some.inj heq)
    exact h.writers ▸ hlt
  · have hserved : (given k events).map Prod.snd ++ (if n ≤ k then [cdr] else []) ++ self.rx = accepted events := by
      have hserved := h.served k hk
      simpa only [CdrSystem.due, hcurrent] using hserved
    have hdue : CdrSystem.due { self with writers := self.writers.set n (trait.write env cdr writer).2,
                                          current := self.atWriter cdr (n + 1) } k =
        if n + 1 ≤ k then [cdr] else [] := by
      have hlength : self.writers.length = initial.length := h.writers
      by_cases hlast : n + 1 < self.writers.length
      · simp only [CdrSystem.due, CdrSystem.atWriter, if_pos hlast]
      · simp only [CdrSystem.due, CdrSystem.atWriter, if_neg hlast]
        rw [if_neg (by omega)]
    rw [given_append, accepted_append, hdue, ← hserved]
    rcases Nat.lt_trichotomy n k with hlt | rfl | hgt
    · simp [given, accepted, Nat.ne_of_lt hlt, Nat.le_of_lt hlt, Nat.succ_le_of_lt hlt]
    · simp [given, accepted]
    · simp [given, accepted, Nat.ne_of_gt hgt, Nat.not_le_of_lt hgt, Nat.not_le_of_lt (Nat.lt_succ_of_lt hgt)]
  · have halone := h.alone k writer' hk
    rw [given_append]
    by_cases hk' : n = k
    · subst hk'
      obtain rfl : writer = Cdr.alone trait writer' (given n events) := Option.some.inj (hwriter.symm.trans halone)
      show (self.writers.set n _)[n]? = _
      rw [List.getElem?_set_self (List.getElem?_eq_some_iff.mp hwriter).1]
      simp [given, Cdr.alone]
    · show (self.writers.set n _)[k]? = _
      rw [List.getElem?_set_ne hk']
      simpa [given, hk'] using halone

/-- **One step of the processor.** -/
theorem serving_step (h : Serving trait initial (self, events)) (hstep : self.step trait label = some (seen, next)) :
    Serving trait initial (next, events ++ seen) := by
  cases label with
  | submit task cdr =>
    obtain ⟨-, heq⟩ := Option.ite_none_right_eq_some.mp hstep
    obtain ⟨rfl, rfl⟩ := Prod.mk.inj (Option.some.inj heq)
    exact h.fill (List.append_nil _).symm rfl rfl ((List.append_nil self.rx).symm ▸ h.capacity) rfl fun _ => rfl
  | sent task =>
    obtain ⟨hroom, heq⟩ := Option.ite_none_right_eq_some.mp hstep
    obtain ⟨cdr, -, heq⟩ := Option.map_eq_some_iff.mp heq
    obtain ⟨rfl, rfl⟩ := Prod.mk.inj heq
    exact h.fill rfl rfl rfl (by rw [List.length_append]; exact hroom) rfl fun _ => rfl
  | cancel task =>
    obtain ⟨cdr, -, heq⟩ := Option.map_eq_some_iff.mp hstep
    obtain ⟨rfl, rfl⟩ := Prod.mk.inj heq
    exact h.fill (List.append_nil _).symm rfl rfl ((List.append_nil self.rx).symm ▸ h.capacity) rfl fun _ => rfl
  | trySubmit task cdr room =>
    cases room with
    | true =>
      obtain ⟨⟨-, -, hroom⟩, heq⟩ := Option.ite_none_right_eq_some.mp hstep
      obtain ⟨rfl, rfl⟩ := Prod.mk.inj (Option.some.inj heq)
      exact h.fill rfl rfl rfl (by rw [List.length_append]; exact hroom) rfl fun _ => rfl
    | false =>
      obtain ⟨-, heq⟩ := Option.ite_none_right_eq_some.mp hstep
      obtain ⟨rfl, rfl⟩ := Prod.mk.inj (Option.some.inj heq)
      exact h.fill (List.append_nil _).symm rfl rfl ((List.append_nil self.rx).symm ▸ h.capacity) rfl fun _ => rfl
  | drop =>
    obtain ⟨-, heq⟩ := Option.ite_none_right_eq_some.mp hstep
    obtain ⟨rfl, rfl⟩ := Prod.mk.inj (Option.some.inj heq)
    exact h.fill (List.append_nil _).symm rfl rfl ((List.append_nil self.rx).symm ▸ h.capacity) rfl fun _ => rfl
  | recv =>
    simp only [CdrSystem.step] at hstep
    split at hstep
    · rename_i cdr rx hcurrent hrx
      obtain ⟨rfl, rfl⟩ := Prod.mk.inj (Option.some.inj hstep)
      exact h.recv hcurrent hrx
    · cases hstep
  | write env =>
    simp only [CdrSystem.step] at hstep
    split at hstep
    · rename_i cdr n hcurrent
      obtain ⟨writer, hwriter, heq⟩ := Option.map_eq_some_iff.mp hstep
      obtain ⟨rfl, rfl⟩ := Prod.mk.inj heq
      exact h.write hcurrent hwriter env
    · cases hstep

end Steps

/-! ## Whole runs -/

/-- What the subsystem has done for the writers and for the tasks. -/
structure Served (initial : List Writer) (s : CdrSystem Task Writer × List (ProcessorEvent Task Env)) : Prop where
  /-- A writer is given what was accepted, in order and each record once. -/
  inOrder : ∀ n, n < initial.length → (given n s.2).map Prod.snd <+: accepted s.2
  /-- It is never further behind than the channel is long, and the record at hand. -/
  behind : ∀ n, n < initial.length → (accepted s.2).length ≤ (given n s.2).length + 1 + channelSize
  /-- What becomes of it depends on nothing else. -/
  alone : ∀ n writer, initial[n]? = some writer → s.1.writers[n]? = some (alone trait writer (given n s.2))
  /-- What a task submits is accepted or refused in order. -/
  tasks : ∀ task, settledBy task s.2 <+: submittedBy task s.2
  /-- When the processor has stopped, nothing is left over. -/
  stopped : s.1.Stopped → (∀ n, n < initial.length → (given n s.2).map Prod.snd = accepted s.2) ∧
    ∀ task, settledBy task s.2 = submittedBy task s.2

/-- **The invariants hold** in every run. -/
theorem serving_run {writers : List Writer} {steps : List (ProcessorStep Task Env)}
    {s : CdrSystem Task Writer × List (ProcessorEvent Task Env)}
    (hrun : run (noted (CdrSystem.step trait)) (.start writers, []) steps = some s) :
    Serving trait writers s ∧ Settling s := by
  have hstep : ∀ (s : CdrSystem Task Writer × List (ProcessorEvent Task Env)) label s',
      Serving trait writers s ∧ Settling s → noted (CdrSystem.step trait) s label = some s' →
        Serving trait writers s' ∧ Settling s' := by
    rintro ⟨self, events⟩ label s' ⟨hserving, hsettling⟩ hstep
    obtain ⟨seen, next, hnext, rfl⟩ := noted_eq_some.mp hstep
    exact ⟨serving_step hserving hnext, settling_step hsettling hnext⟩
  have hstart : Serving trait writers (CdrSystem.start writers, ([] : List (ProcessorEvent Task Env))) :=
    ⟨Nat.zero_le _, rfl, fun _ _ h => (by cases h), fun _ _ => rfl, fun _ _ h => h⟩
  have hstart' : Settling (CdrSystem.start writers, ([] : List (ProcessorEvent Task Env))) :=
    ⟨fun _ => rfl, fun h => (by cases h)⟩
  exact run_inv hstep ⟨hstart, hstart'⟩ hrun

/-- **Every writer is served**, whatever happens. -/
theorem serves_run (writers : List Writer) (steps : List (ProcessorStep Task Env))
    (s : CdrSystem Task Writer × List (ProcessorEvent Task Env))
    (hrun : run (noted (CdrSystem.step trait)) (.start writers, []) steps = some s) : Served trait writers s := by
  obtain ⟨hserving, hsettling⟩ := serving_run trait hrun
  refine ⟨fun n hn => ?_, fun n hn => ?_, hserving.alone, fun task => ?_, fun hstopped => ⟨fun n hn => ?_, fun task => ?_⟩⟩
  · rw [← hserving.served n hn, List.append_assoc]
    exact List.prefix_append _ _
  · have hdue : (s.1.due n).length ≤ 1 := by
      unfold CdrSystem.due
      split
      · split <;> simp
      · simp
    have hcapacity := hserving.capacity
    rw [← hserving.served n hn, List.length_append, List.length_append, List.length_map]
    omega
  · rw [← hsettling.tasks task]
    exact List.prefix_append _ _
  · have hserved := hserving.served n hn
    rwa [CdrSystem.due, hstopped.current, hstopped.rx, List.append_nil, List.append_nil] at hserved
  · have htask := hsettling.tasks task
    rw [hsettling.closed hstopped.closed] at htask
    rwa [AList.lookup_empty, Option.toList_none, List.append_nil] at htask

/-- A writer that never writes, and counts how often it was asked to. -/
def unavailable : CdrWriter Unit Nat where
  write _ _ calls := (.error .unavailable, calls + 1)

/-- Two records, for the first of which nobody waited. -/
def givenUp : List (ProcessorStep Bool Unit) :=
  [.submit true (submit "" "m" "e" "" ""), .trySubmit false (submit "" "n" "e" "" "") true, .cancel true, .drop,
    .recv, .write (), .write ()]

theorem serves_unavailable :
    ∃ s, run (noted (CdrSystem.step unavailable)) (.start [0, 0], []) givenUp = some s ∧ Served unavailable [0, 0] s ∧
      s.1.writers = [1, 1] :=
  ⟨_, rfl, serves_run unavailable [0, 0] givenUp _ rfl, rfl⟩

/-! ## Writers in memory -/

/-- In-memory CDR writer. -/
structure MemoryCdrWriter where
  records : List Cdr
  maxRecords : Nat

namespace MemoryCdrWriter

/-- `MemoryCdrWriter::new`. -/
def new (maxRecords : Nat) : MemoryCdrWriter := ⟨[], maxRecords⟩

/-- `write`. -/
def write (cdr : Cdr) (self : MemoryCdrWriter) : MemoryCdrWriter :=
  let records := if self.maxRecords ≤ self.records.length then self.records.tail else self.records
  { self with records := records ++ [cdr] }

/-- `recent`: get recent CDRs. -/
def recent (count : Nat) (self : MemoryCdrWriter) : List Cdr := self.records.reverse.take count

/-- `by_esme`: get CDRs by ESME. -/
def byEsme (esmeId : String) (count : Nat) (self : MemoryCdrWriter) : List Cdr :=
  (self.records.reverse.filter fun c => c.esmeId = esmeId).take count

/-- `count`: get total count. -/
def count (self : MemoryCdrWriter) : Nat := self.records.length

/-- It is a ring. -/
theorem write_eq (cdr : Cdr) (self : MemoryCdrWriter) :
    self.write cdr = { self with records := Recent.push (Recent.ring self.maxRecords) self.records cdr } := by
  simp only [write, Recent.push, Recent.ring]
  split
  · rw [List.drop_one]
  · rw [List.drop_zero]

theorem foldl_write (cdrs : List Cdr) (self : MemoryCdrWriter) :
    cdrs.foldl (fun self cdr => self.write cdr) self =
      { self with records := cdrs.foldl (Recent.push (Recent.ring self.maxRecords)) self.records } := by
  induction cdrs generalizing self with
  | nil => rfl
  | cons cdr cdrs ih =>
    rw [List.foldl_cons, ih, write_eq, List.foldl_cons]

/-- **It keeps the last records**, as many as it may, and one if it may keep none. -/
theorem foldl_write_new (maxRecords : Nat) (cdrs : List Cdr) :
    cdrs.foldl (fun self cdr => self.write cdr) (new maxRecords) =
      ⟨cdrs.drop (cdrs.length - max 1 maxRecords), maxRecords⟩ := by
  rw [foldl_write, new, Recent.foldl_push_ring (Nat.zero_le _)]
  rfl

end MemoryCdrWriter

/-- The writers of a configuration: some are in memory, and some are of another kind. -/
inductive AnyWriter (Other : Type) where
  | memory (writer : MemoryCdrWriter)
  | other (writer : Other)

/-- A write to any of them; in memory it never fails. -/
def AnyWriter.write {Other : Type} (trait : CdrWriter Env Other) : CdrWriter Env (AnyWriter Other) where
  write env cdr
    | .memory writer => (.ok (), .memory (writer.write cdr))
    | .other writer =>
      let (result, writer) := trait.write env cdr writer
      (result, .other writer)

/-- What a writer in memory says about what it was given. -/
structure Remembers (maxRecords : Nat) (cdrs : List Cdr) (writer : MemoryCdrWriter) : Prop where
  count : writer.count = min cdrs.length (max 1 maxRecords)
  /-- The last record comes first. -/
  recent : ∀ count, writer.recent count = cdrs.reverse.take (min count (max 1 maxRecords))
  byEsme : ∀ esmeId count, writer.byEsme esmeId count =
    ((cdrs.reverse.take (max 1 maxRecords)).filter fun c => c.esmeId = esmeId).take count

theorem remembers_foldl (maxRecords : Nat) (cdrs : List Cdr) :
    Remembers maxRecords cdrs (cdrs.foldl (fun self cdr => self.write cdr) (.new maxRecords)) := by
  have hreverse : (cdrs.drop (cdrs.length - max 1 maxRecords)).reverse = cdrs.reverse.take (max 1 maxRecords) := by
    rw [List.take_reverse]
  rw [MemoryCdrWriter.foldl_write_new]
  refine ⟨?_, fun count => ?_, fun esmeId count => ?_⟩
  · show (cdrs.drop _).length = _
    rw [List.length_drop]
    omega
  · show (cdrs.drop _).reverse.take count = _
    rw [hreverse, List.take_take]
  · show ((cdrs.drop _).reverse.filter _).take count = _
    rw [hreverse]

/-- Alone, a writer in memory does nothing but write. -/
theorem alone_memory {Other : Type} (trait : CdrWriter Env Other) (given : List (Env × Cdr)) (writer : MemoryCdrWriter) :
    alone (AnyWriter.write trait) (.memory writer) given =
      .memory ((given.map Prod.snd).foldl (fun self cdr => self.write cdr) writer) := by
  induction given generalizing writer with
  | nil => rfl
  | cons g given ih => exact ih (writer.write g.2)

/-- **A writer in memory remembers** the last of the records that were accepted, whatever the writers around it do. -/
theorem remembers_run {Other : Type} (trait : CdrWriter Env Other) (writers : List (AnyWriter Other)) (n maxRecords : Nat)
    (steps : List (ProcessorStep Task Env)) (s : CdrSystem Task (AnyWriter Other) × List (ProcessorEvent Task Env))
    (hwriter : writers[n]? = some (.memory (.new maxRecords)))
    (hrun : run (noted (CdrSystem.step (AnyWriter.write trait))) (.start writers, []) steps = some s) :
    ∃ cdrs writer, cdrs <+: accepted s.2 ∧ s.1.writers[n]? = some (.memory writer) ∧ Remembers maxRecords cdrs writer ∧
      (s.1.Stopped → cdrs = accepted s.2) := by
  obtain ⟨hserving, -⟩ := serving_run _ hrun
  have hserved := hserving.served n (List.getElem?_eq_some_iff.mp hwriter).1
  have halone := hserving.alone n _ hwriter
  rw [alone_memory] at halone
  refine ⟨(given n s.2).map Prod.snd, _, ?_, halone, remembers_foldl .., fun hstopped => ?_⟩
  · rw [← hserved, List.append_assoc]
    exact List.prefix_append _ _
  · rwa [CdrSystem.due, hstopped.current, hstopped.rx, List.append_nil, List.append_nil] at hserved

/-- Two records, one after the other. -/
def twoRecords : List (ProcessorStep Unit Unit) :=
  [.trySubmit () (submit "" "m" "e" "" "") true, .recv, .write (), .write (),
    .trySubmit () (submit "" "n" "e" "" "") true, .recv, .write (), .write (), .drop]

/-- A writer that may keep nothing keeps one of them, beside a writer that never writes. -/
theorem remembers_unavailable :
    ∃ s, run (noted (CdrSystem.step (AnyWriter.write unavailable))) (.start [.other 0, .memory (.new 0)], []) twoRecords =
        some s ∧
      ∃ cdrs writer, cdrs <+: accepted s.2 ∧ s.1.writers[1]? = some (.memory writer) ∧ Remembers 0 cdrs writer ∧
        (s.1.Stopped → cdrs = accepted s.2) :=
  ⟨_, rfl, remembers_run unavailable [.other 0, .memory (.new 0)] 1 0 twoRecords _ rfl rfl⟩

end Smppd.Cdr
