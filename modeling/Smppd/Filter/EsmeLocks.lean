/-
  THE LOCKS OF THE ESME STORE (`src/filter/esme.rs`): any number of threads that save, delete and look up ESMEs at
  once.

  The store has two reader-writer locks, and a guard lives as long as the expression that it is a temporary of:
  in `save` the guard on the index outlives the look at `esmes`; in `get_by_system_id` it is held for the whole
  call; and in `delete` the guard on `esmes` is a temporary of the condition of an `if let`, and is alive in its
  block, where the INDEX IS LOCKED.  So a delete takes the two locks in the other order.

  `deadlocked_iff` is what a deadlock looks like, and `deadlock_free_iff` says exactly which steps must not come
  together.  A deadlock stays for ever (`deadlocked_run`), with `esmes` held for writing: nobody is found any more.

  A thread begins the call that its label names, when it has none.  `authenticate` looks at the ESME that
  `get_by_system_id` has cloned, after all guards are gone.
-/
import Mathlib.Data.Fintype.Card
import Smppd.Lib.LockedThreads
import Smppd.Filter.Esme

set_option linter.unusedVariables false

namespace Smppd.Filter.EsmeLocks

open Machine Table Locks LockedProgram

/-! ## Threads -/

/-- The two locks of a `MemoryEsmeStore`. -/
inductive Lock where
  | systemIdIndex
  | esmes
  deriving DecidableEq

/-- The calls of the store. -/
inductive StoreCall where
  | save (esme : Esme)
  | delete (id : String)
  | getBySystemId (systemId : String)
  | authenticate (systemId password : String) (ip : Option String)

/-- Where a thread is. -/
inductive Task where
  | idle
  /-- `save`: about to write the index. -/
  | saving (esme : Esme)
  /-- With the index: about to look at what is stored under the id. -/
  | checking (esme : Esme)
  /-- With both: the old system id is out of the index. -/
  | checked (esme : Esme)
  /-- With the index: about to insert the new one. -/
  | indexing (esme : Esme)
  /-- About to store the ESME. -/
  | storing (esme : Esme)
  /-- `delete`: about to write `esmes`. -/
  | removing (id : String)
  /-- With `esmes`: about to write the index. -/
  | unindexing (esme : Esme)
  /-- `get_by_system_id`: about to read the index. -/
  | finding (systemId : String)
  /-- With the index: about to read `esmes`. -/
  | getting (id : String)
  /-- Its guards are dropped, one after the other. -/
  | leaving (guards : List (Guard Lock))
  deriving DecidableEq

namespace Task

/-- The guards of a thread that are alive. -/
def held : Task → List (Guard Lock)
  | .idle | .saving _ | .storing _ | .removing _ | .finding _ => []
  | .checking _ | .indexing _ => [(.systemIdIndex, .write)]
  | .checked _ => [(.esmes, .read), (.systemIdIndex, .write)]
  | .unindexing _ => [(.esmes, .write)]
  | .getting _ => [(.systemIdIndex, .read)]
  | .leaving guards => guards

/-- The guard that a thread waits for. -/
def wants : Task → Option (Guard Lock)
  | .saving _ | .unindexing _ => some (.systemIdIndex, .write)
  | .storing _ | .removing _ => some (.esmes, .write)
  | .finding _ => some (.systemIdIndex, .read)
  | .checking _ | .getting _ => some (.esmes, .read)
  | .idle | .checked _ | .indexing _ | .leaving _ => none

/-- A call begins. -/
def begin : StoreCall → Task
  | .save esme => .saving esme
  | .delete id => .removing id
  | .getBySystemId systemId => .finding systemId
  | .authenticate systemId _ _ => .finding systemId

/-- What a thread does next, once it has the guard that it wants. -/
def next (call : StoreCall) (store : MemoryEsmeStore) : Task → Task × MemoryEsmeStore
  | .idle => (begin call, store)
  | .saving esme => (.checking esme, store)
  | .checking esme => (.checked esme, { store with systemIdIndex := store.withoutOld esme.id })
  | .checked esme => (.indexing esme, store)
  | .indexing esme =>
    (.storing esme, { store with systemIdIndex := store.systemIdIndex.insert esme.systemId esme.id })
  | .storing esme =>
    (.leaving [(.esmes, .write)], { store with esmes := store.esmes.insert esme.id esme })
  | .removing id =>
    match store.esmes.lookup id with
    | some esme => (.unindexing esme, { store with esmes := store.esmes.erase id })
    | none => (.leaving [(.esmes, .write)], store)
  | .unindexing esme =>
    (.leaving [(.systemIdIndex, .write), (.esmes, .write)],
      { store with systemIdIndex := store.systemIdIndex.erase esme.systemId })
  | .finding systemId =>
    match store.systemIdIndex.lookup systemId with
    | some id => (.getting id, store)
    | none => (.leaving [(.systemIdIndex, .read)], store)
  | .getting id => (.leaving [(.esmes, .read), (.systemIdIndex, .read)], store)
  | .leaving [] => (.idle, store)
  | .leaving (_ :: guards) => (.leaving guards, store)

/-- What a thread holds after it has gone on: what it held, and what it wanted. -/
theorem held_next (call : StoreCall) (store : MemoryEsmeStore) (task : Task) :
    ∀ g ∈ (task.next call store).1.held, g ∈ task.held ∨ task.wants = some g := by
  intro g hg
  cases task with
  | idle =>
    cases call <;> cases hg
  | leaving guards =>
    cases guards with
    | nil => cases hg
    | cons g' guards => exact .inl (List.mem_cons_of_mem g' hg)
  | removing id =>
    simp only [next] at hg
    split at hg <;> exact .inr (congrArg some (List.mem_singleton.mp hg).symm)
  | finding systemId =>
    simp only [next] at hg
    split at hg <;> exact .inr (congrArg some (List.mem_singleton.mp hg).symm)
  | saving esme | storing esme => exact .inr (congrArg some (List.mem_singleton.mp hg).symm)
  | checking esme | unindexing esme | getting id =>
    rcases List.mem_cons.mp hg with rfl | hg
    · exact .inr rfl
    · exact .inl hg
  | checked esme => exact .inl (List.mem_cons_of_mem _ hg)
  | indexing esme => cases hg

end Task

/-- The calls of the store as programs over its locks. -/
def program : LockedProgram Task StoreCall MemoryEsmeStore Lock := ⟨Task.held, Task.wants, Task.next, Task.held_next⟩

variable {ι : Type} [Fintype ι] [DecidableEq ι]

/-- No call has begun. -/
def quiet (store : MemoryEsmeStore) : Threads ι Task MemoryEsmeStore := ⟨fun _ => .idle, store⟩

/-- Some threads wait for one another. -/
def Deadlocked (s : Threads ι Task MemoryEsmeStore) : Prop := Deadlock (program.heldBy s) (program.wantedBy s)

variable {s s' : Threads ι Task MemoryEsmeStore} {label : ι × StoreCall}

/-- **The locks exclude**: no two threads have guards that exclude each other. -/
theorem exclusive (store : MemoryEsmeStore) {labels : List (ι × StoreCall)}
    (hrun : run program.step (quiet store) labels = some s) : Exclusive (program.heldBy s) :=
  exclusive_run (fun _ => rfl) hrun

/-! ## A call alone -/

/-- What a call does to the store, by itself. -/
def StoreCall.effect (store : MemoryEsmeStore) : StoreCall → MemoryEsmeStore
  | .save esme => store.save esme
  | .delete id => (store.delete id).toOption.getD store
  | .getBySystemId _ | .authenticate _ _ _ => store

/-- What a thread does next, and the store. -/
def nextWith (call : StoreCall) (p : Task × MemoryEsmeStore) : Task × MemoryEsmeStore := p.1.next call p.2

/-- A thread that runs while the others are idle waits for nobody. -/
theorem run_alone {i : ι} (hidle : ∀ j, j ≠ i → s.tasks j = .idle) (call : StoreCall) (n : Nat) :
    run program.step s (List.replicate n (i, call)) =
      some ⟨Function.update s.tasks i ((nextWith call)^[n] (s.tasks i, s.store)).1,
        ((nextWith call)^[n] (s.tasks i, s.store)).2⟩ := by
  induction n generalizing s with
  | zero => exact congrArg some (by rw [Function.iterate_zero, id, Function.update_eq_self])
  | succ n ih =>
    have hfree : ∀ g ∈ program.wantedBy s i, Free (program.heldBy s) i g := by
      intro g hg j hj h hh
      rw [heldBy, hidle j hj] at hh
      cases hh
    have hidle' : ∀ j, j ≠ i → (program.go s i call).tasks j = .idle :=
      fun j hj => (go_of_ne hj).trans (hidle j hj)
    have hself : ((program.go s i call).tasks i, (program.go s i call).store) = nextWith call (s.tasks i, s.store) :=
      Prod.ext go_self rfl
    rw [List.replicate_succ, run_cons, step_eq_some.mpr ⟨hfree, rfl⟩, Option.bind_some, ih hidle',
      Function.iterate_succ_apply, hself]
    exact congrArg some (congrArg (Threads.mk · _) (Function.update_idem _ _ s.tasks))

/-- A look-up by itself ends, and changes nothing. -/
theorem lookup_alone {call : StoreCall} {systemId : String} {store : MemoryEsmeStore}
    (hbegin : Task.begin call = .finding systemId) (heffect : call.effect store = store) :
    ∃ n, (nextWith call)^[n] (.idle, store) = (.idle, call.effect store) := by
  rw [heffect]
  cases hfound : store.systemIdIndex.lookup systemId with
  | some id =>
    have hnext : (Task.begin call).next call store = (.getting id, store) := by
      simp only [hbegin, Task.next, hfound]
    refine ⟨6, ?_⟩
    show (nextWith call)^[4] ((Task.begin call).next call store) = _
    rw [hnext]
    rfl
  | none =>
    have hnext : (Task.begin call).next call store = (.leaving [(.systemIdIndex, .read)], store) := by
      simp only [hbegin, Task.next, hfound]
    refine ⟨4, ?_⟩
    show (nextWith call)^[2] ((Task.begin call).next call store) = _
    rw [hnext]
    rfl

/-- By itself a call ends, and has done what it does when nothing else is going on. -/
theorem effect_alone (call : StoreCall) (store : MemoryEsmeStore) :
    ∃ n, (nextWith call)^[n] (.idle, store) = (.idle, call.effect store) := by
  cases call with
  | save esme => exact ⟨8, rfl⟩
  | delete id =>
    cases hid : store.esmes.lookup id with
    | some esme =>
      have hnext : (Task.removing id).next (.delete id) store =
          (.unindexing esme, { store with esmes := store.esmes.erase id }) := by
        simp only [Task.next, hid]
      have heffect : (StoreCall.delete id).effect store =
          ⟨store.esmes.erase id, store.systemIdIndex.erase esme.systemId⟩ := by
        simp only [StoreCall.effect, MemoryEsmeStore.delete, hid]
        rfl
      refine ⟨6, ?_⟩
      show (nextWith (.delete id))^[4] ((Task.removing id).next (.delete id) store) = _
      rw [hnext, heffect]
      rfl
    | none =>
      have hnext : (Task.removing id).next (.delete id) store = (.leaving [(.esmes, .write)], store) := by
        simp only [Task.next, hid]
      have heffect : (StoreCall.delete id).effect store = store := by
        simp only [StoreCall.effect, MemoryEsmeStore.delete, hid]
        rfl
      refine ⟨4, ?_⟩
      show (nextWith (.delete id))^[2] ((Task.removing id).next (.delete id) store) = _
      rw [hnext, heffect]
      rfl
  | getBySystemId systemId => exact lookup_alone rfl rfl
  | authenticate systemId password ip => exact lookup_alone rfl rfl

/-- **A call alone** runs to its end, and is the call of the sequential store. -/
theorem call_alone (store : MemoryEsmeStore) (i : ι) (call : StoreCall) :
    ∃ n, run program.step (quiet store) (List.replicate n (i, call)) = some (quiet (call.effect store)) := by
  obtain ⟨n, hn⟩ := effect_alone call store
  have hrun := run_alone (s := quiet store) (i := i) (fun j hj => rfl) call n
  have hstart : ((quiet store : Threads ι Task MemoryEsmeStore).tasks i, (quiet store : Threads ι Task MemoryEsmeStore).store) = (.idle, store) := rfl
  rw [hstart, hn] at hrun
  exact ⟨n, hrun.trans (congrArg some (congrArg (Threads.mk · _) (Function.update_eq_self i _)))⟩

/-! ## Deadlocks -/

/-- With `esmes`, and about to write the index. -/
def Task.crossing : Task → Bool
  | .unindexing _ => true
  | _ => false

/-- With the index, and about to read `esmes`. -/
def Task.between : Task → Bool
  | .checking _ | .getting _ => true
  | _ => false

/-- The order in which `save` and `get_by_system_id` take the locks. -/
def Lock.rank : Lock → Bool
  | .systemIdIndex => false
  | .esmes => true

/-- Only a delete does not keep to it. -/
theorem crossing_of_unordered {task : Task} {g h : Guard Lock} (hwants : task.wants = some g) (hheld : h ∈ task.held)
    (hrank : ¬ h.1.rank < g.1.rank) : task.crossing = true := by
  cases task with
  | unindexing esme => rfl
  | checking esme | getting id =>
    obtain rfl := Option.some.inj hwants
    obtain rfl := List.mem_singleton.mp hheld
    exact absurd (by decide) hrank
  | saving esme | storing esme | removing id | finding systemId => cases hheld
  | idle | checked esme | indexing esme | leaving guards => cases hwants

theorem wants_of_crossing {task : Task} {g : Guard Lock} (hcrossing : task.crossing = true) (hwants : task.wants = some g) :
    g.1 = .systemIdIndex := by
  cases task <;> cases hcrossing
  obtain rfl := Option.some.inj hwants
  rfl

/-- Who waits and has the index waits for `esmes`. -/
theorem between_of_index {task : Task} {g h : Guard Lock} (hwants : task.wants = some g) (hheld : h ∈ task.held)
    (hindex : h.1 = .systemIdIndex) : task.between = true := by
  cases task with
  | checking esme | getting id => rfl
  | unindexing esme =>
    obtain rfl := List.mem_singleton.mp hheld
    cases hindex
  | saving esme | storing esme | removing id | finding systemId => cases hheld
  | idle | checked esme | indexing esme | leaving guards => cases hwants

omit [Fintype ι] [DecidableEq ι] in
/-- Each of the two waits for the other. -/
theorem waitsFor_crossing {i j : ι} (hi : (s.tasks i).crossing = true) (hj : (s.tasks j).between = true) :
    WaitsFor (program.heldBy s) (program.wantedBy s) i j ∧ WaitsFor (program.heldBy s) (program.wantedBy s) j i := by
  have hne : i ≠ j := by
    rintro rfl
    cases htask : s.tasks i with
    | unindexing esme =>
      rw [htask] at hj
      cases hj
    | _ =>
      rw [htask] at hi
      cases hi
  have hcross : program.wantedBy s i = some (.systemIdIndex, .write) ∧ program.heldBy s i = [(.esmes, .write)] := by
    unfold wantedBy heldBy
    cases htask : s.tasks i <;> rw [htask] at hi <;> cases hi
    exact ⟨rfl, rfl⟩
  have hwait : program.wantedBy s j = some (.esmes, .read) ∧ ∃ mode, program.heldBy s j = [(.systemIdIndex, mode)] := by
    unfold wantedBy heldBy
    cases htask : s.tasks j <;> rw [htask] at hj <;> cases hj
    · exact ⟨rfl, .write, rfl⟩
    · exact ⟨rfl, .read, rfl⟩
  obtain ⟨hwantsj, mode, hheldj⟩ := hwait
  refine ⟨⟨hne.symm, _, hcross.1, (.systemIdIndex, mode), ?_, rfl, .inl rfl⟩,
    hne, _, hwantsj, (.esmes, .write), ?_, rfl, .inr rfl⟩
  · rw [hheldj]
    exact List.mem_singleton_self _
  · rw [hcross.2]
    exact List.mem_singleton_self _

omit [Fintype ι] [DecidableEq ι] in
/-- **What a deadlock is**: a delete that has `esmes` and waits for the index, and a save or a look-up that has the
    index and waits for `esmes`. -/
theorem deadlocked_iff :
    Deadlocked s ↔ (∃ i, (s.tasks i).crossing = true) ∧ ∃ j, (s.tasks j).between = true := by
  constructor
  · rintro ⟨tasks, hsome, hwait⟩
    obtain ⟨i, hi, g, hwants, h, hheld, hrank⟩ := exists_unordered Lock.rank hsome hwait
    have hcrossing : (s.tasks i).crossing = true := crossing_of_unordered hwants hheld hrank
    -- it wants the index, which another one of them has
    obtain ⟨j, hj, -, g', hwants', h', hheld', hconflict⟩ := hwait i hi
    obtain ⟨-, -, -, gj, hwantsj, -⟩ := hwait j hj
    have hindex : g'.1 = .systemIdIndex := wants_of_crossing hcrossing hwants'
    exact ⟨⟨i, hcrossing⟩, j, between_of_index hwantsj hheld' (hconflict.1.symm.trans hindex)⟩
  · rintro ⟨⟨i, hi⟩, j, hj⟩
    obtain ⟨hij, hji⟩ := waitsFor_crossing hi hj
    refine ⟨{i, j}, ⟨i, .inl rfl⟩, ?_⟩
    rintro k (rfl | rfl)
    · exact ⟨j, .inr rfl, hij⟩
    · exact ⟨i, .inl rfl, hji⟩

/-- **A deadlock stays.**  Neither of the two ever goes on, whatever the others do. -/
theorem deadlocked_step (hdeadlocked : Deadlocked s) (hstep : program.step s label = some s') : Deadlocked s' := by
  obtain ⟨⟨i, hi⟩, j, hj⟩ := deadlocked_iff.mp hdeadlocked
  obtain ⟨hij, hji⟩ := waitsFor_crossing hi hj
  obtain ⟨hfree, rfl⟩ := step_eq_some.mp hstep
  have hstays : ∀ k l, WaitsFor (program.heldBy s) (program.wantedBy s) k l →
      (program.go s label.1 label.2).tasks k = s.tasks k := by
    rintro k l hwaits
    refine go_of_ne ?_
    rintro rfl
    have hwaits' := hwaits
    obtain ⟨-, g, hwants, -⟩ := hwaits'
    exact hwaits.not_free hwants (hfree g hwants)
  exact deadlocked_iff.mpr ⟨⟨i, hstays i j hij ▸ hi⟩, j, hstays j i hji ▸ hj⟩

theorem deadlocked_run {labels : List (ι × StoreCall)} (hdeadlocked : Deadlocked s) (hrun : run program.step s labels = some s') :
    Deadlocked s' :=
  run_inv (fun t label t' h hstep => deadlocked_step h hstep) hdeadlocked hrun

/-! ## How a deadlock comes about -/

/-- A delete that is about to take `esmes`, and will find its ESME there. -/
def Task.deletes (store : MemoryEsmeStore) : Task → Bool
  | .removing id => (store.esmes.lookup id).isSome
  | _ => false

/-- A save that is about to take the index, or a look-up that is and will find an entry there. -/
def Task.looksUp (store : MemoryEsmeStore) : Task → Bool
  | .saving _ => true
  | .finding systemId => (store.systemIdIndex.lookup systemId).isSome
  | _ => false

/-- **A step that keeps the two apart**: a delete does not take `esmes` while somebody has the index and has yet to
    take `esmes`, and nobody takes the index that way while a delete has `esmes` and has yet to take the index. -/
def Apart (s : Threads ι Task MemoryEsmeStore) (label : ι × StoreCall) : Prop :=
  ((s.tasks label.1).deletes s.store = true → ∀ j, (s.tasks j).between = false) ∧
    ((s.tasks label.1).looksUp s.store = true → ∀ j, (s.tasks j).crossing = false)

instance (s : Threads ι Task MemoryEsmeStore) (label : ι × StoreCall) : Decidable (Apart s label) := inferInstanceAs (Decidable (_ ∧ _))

/-- Where a step leads: to one of the two places, when it was about to. -/
theorem places_next (task : Task) (call : StoreCall) (store : MemoryEsmeStore) :
    (task.next call store).1.crossing = task.deletes store ∧
      (task.next call store).1.between = task.looksUp store := by
  cases task with
  | removing id =>
    simp only [Task.next, Task.deletes, Task.looksUp]
    cases store.esmes.lookup id <;> exact ⟨rfl, rfl⟩
  | finding systemId =>
    simp only [Task.next, Task.deletes, Task.looksUp]
    cases store.systemIdIndex.lookup systemId <;> exact ⟨rfl, rfl⟩
  | idle => cases call <;> exact ⟨rfl, rfl⟩
  | leaving guards => cases guards <;> exact ⟨rfl, rfl⟩
  | _ => exact ⟨rfl, rfl⟩

/-- A thread that is about to be one of the two is neither of them. -/
theorem neither {task : Task} {store : MemoryEsmeStore} (h : task.deletes store = true ∨ task.looksUp store = true) :
    task.crossing = false ∧ task.between = false ∧ ¬ (task.deletes store = true ∧ task.looksUp store = true) := by
  cases task with
  | removing id => exact ⟨rfl, rfl, fun hboth => Bool.false_ne_true hboth.2⟩
  | saving esme | finding systemId => exact ⟨rfl, rfl, fun hboth => Bool.false_ne_true hboth.1⟩
  | _ => rcases h with h | h <;> cases h

omit [Fintype ι] in
/-- Somebody is at a place after a step: the thread that went on, or another one that was there before. -/
theorem exists_go {P : Task → Prop} (s : Threads ι Task MemoryEsmeStore) (i : ι) (call : StoreCall) :
    (∃ j, P ((program.go s i call).tasks j)) ↔ P ((s.tasks i).next call s.store).1 ∨ ∃ j, j ≠ i ∧ P (s.tasks j) := by
  constructor
  · rintro ⟨j, hj⟩
    by_cases hji : j = i
    · subst hji
      rw [go_self] at hj
      exact .inl hj
    · rw [go_of_ne hji] at hj
      exact .inr ⟨j, hji, hj⟩
  · rintro (hi | ⟨j, hji, hj⟩)
    · refine ⟨i, ?_⟩
      rw [go_self]
      exact hi
    · refine ⟨j, ?_⟩
      rw [go_of_ne hji]
      exact hj

omit [Fintype ι] [DecidableEq ι] in
/-- Another thread is at a place where this one is not. -/
theorem exists_ne_iff {P : Task → Prop} {i : ι} (hi : ¬ P (s.tasks i)) :
    (∃ j, j ≠ i ∧ P (s.tasks j)) ↔ ∃ j, P (s.tasks j) :=
  ⟨fun ⟨j, _, hj⟩ => ⟨j, hj⟩, fun ⟨j, hj⟩ => ⟨j, fun hji => hi (hji ▸ hj), hj⟩⟩

/-- **The step lemma**: where there is no deadlock, a step leads to none just when it keeps the two apart. -/
theorem deadlocked_step_iff (hsafe : ¬ Deadlocked s) (hstep : program.step s label = some s') :
    ¬ Deadlocked s' ↔ Apart s label := by
  obtain ⟨i, call⟩ := label
  obtain ⟨hfree, rfl⟩ := step_eq_some.mp hstep
  rw [deadlocked_iff] at hsafe ⊢
  have hcrossing := exists_go (P := fun task => task.crossing = true) s i call
  have hbetween := exists_go (P := fun task => task.between = true) s i call
  obtain ⟨hdelete, hlookup⟩ := places_next (s.tasks i) call s.store
  rw [hcrossing, hbetween, hdelete, hlookup, Apart]
  by_cases hdeletes : (s.tasks i).deletes s.store = true
  · -- it is the delete now, and there must be nobody between the locks
    obtain ⟨-, hi, hone⟩ := neither (.inl hdeletes)
    have hlooksUp : ¬ (s.tasks i).looksUp s.store = true := fun h => hone ⟨hdeletes, h⟩
    rw [exists_ne_iff (P := fun task => task.between = true) (by rw [hi]; exact Bool.false_ne_true)]
    simp only [hdeletes, hlooksUp, Bool.false_eq_true, true_or, true_and, false_or, false_implies, and_true,
      forall_const, not_exists, Bool.not_eq_true]
  · by_cases hlooksUp : (s.tasks i).looksUp s.store = true
    · -- it is between the locks now, and there must be no delete
      obtain ⟨hi, -, -⟩ := neither (.inr hlooksUp)
      rw [exists_ne_iff (P := fun task => task.crossing = true) (by rw [hi]; exact Bool.false_ne_true)]
      simp only [hdeletes, hlooksUp, Bool.false_eq_true, true_or, and_true, false_or, false_implies, true_and,
        forall_const, not_exists, Bool.not_eq_true]
    · -- it is neither, and what there was of them was not both
      simp only [hdeletes, hlooksUp, Bool.false_eq_true, false_or, false_implies, and_true, iff_true]
      rintro ⟨⟨j, -, hj⟩, k, -, hk⟩
      exact hsafe ⟨⟨j, hj⟩, k, hk⟩

/-- **When the store cannot deadlock, exactly.**  For any threads and any calls, in whatever order they take their
    steps: no state of a run is deadlocked just when all its steps keep the two apart. -/
theorem deadlock_free_iff (store : MemoryEsmeStore) {labels : List (ι × StoreCall)}
    (hrun : run program.step (quiet store) labels = some s) :
    (∀ before after t, labels = before ++ after → run program.step (quiet store) before = some t → ¬ Deadlocked t) ↔
      Meets program.step Apart (quiet store) labels := by
  have hnew : ¬ Deadlocked (quiet store : Threads ι Task MemoryEsmeStore) := by
    rw [deadlocked_iff]
    rintro ⟨⟨i, hi⟩, -⟩
    cases hi
  exact (meets_iff_always (fun t label t' (h : True) hstep => h) (fun t label t' h hsafe hstep =>
    deadlocked_step_iff hsafe hstep) trivial hnew hrun).symm

/-- A store with one ESME. -/
def withOne : MemoryEsmeStore := MemoryEsmeStore.new.save (.new "a" "x" "1")

/-- It is deleted, and looked up afterwards. -/
theorem deadlock_free_in_turn :
    ∃ s : Threads (Fin 2) Task MemoryEsmeStore, run program.step (quiet withOne)
        (List.replicate 6 (0, .delete "a") ++ List.replicate 4 (1, .authenticate "x" "1" none)) = some s ∧
      ¬ Deadlocked s := by
  have hrun : run program.step (quiet withOne : Threads (Fin 2) Task MemoryEsmeStore)
      (List.replicate 6 (0, .delete "a") ++ List.replicate 4 (1, .authenticate "x" "1" none)) = some _ := rfl
  exact ⟨_, hrun, (deadlock_free_iff withOne hrun).mpr (by decide) _ [] _ (List.append_nil _).symm hrun⟩

/-- A delete and a save, each of which has taken its first lock. -/
theorem delete_and_save_deadlock :
    ∃ s : Threads (Fin 2) Task MemoryEsmeStore, run program.step (quiet withOne)
        [(0, .delete "a"), (1, .save (.new "b" "y" "2")), (0, .delete "a"), (1, .save (.new "b" "y" "2"))] = some s ∧
      Deadlocked s ∧ ∀ labels s', run program.step s labels = some s' → Deadlocked s' := by
  have hrun : run program.step (quiet withOne : Threads (Fin 2) Task MemoryEsmeStore)
      [(0, .delete "a"), (1, .save (.new "b" "y" "2")), (0, .delete "a"), (1, .save (.new "b" "y" "2"))] = some _ := rfl
  refine ⟨_, hrun, ?_, ?_⟩
  · exact deadlocked_iff.mpr ⟨⟨0, rfl⟩, 1, rfl⟩
  · intro labels s' h
    exact deadlocked_run (deadlocked_iff.mpr ⟨⟨0, rfl⟩, 1, rfl⟩) h

end Smppd.Filter.EsmeLocks
