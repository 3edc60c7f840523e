/-
  The MEMORY STORE of configurations (`src/config/store/memory.rs`): tasks that update it, load from it and watch it.

  `update` puts a valid configuration in its place under a lock, lets go of the lock, and sends the configuration to the
  watchers.  In between, who loads is ahead of who watches; and when two updates overlap, the watchers may be sent the
  two configurations in the other order, and nothing tells them later (`parted_run`).  `watchedConfig_run` says what holds
  in whatever order tasks proceed, and that updates that do not overlap leave everybody with the same configuration.

  A watcher is given a clone of the one receiver that the store has kept from the beginning, and this receiver has never
  looked: whoever watches is told of the updates there have been before.
-/
import Smppd.Config.FileStore
import Smppd.Lib.Watch

namespace Smppd

open Machine Record

/-! ## The store -/

/-- In-memory configuration store. -/
structure MemoryConfigStore where
  config : Config
  watchTx : Watch Config

/-- `MemoryConfigStore::new`. -/
def MemoryConfigStore.new (config : Config) : MemoryConfigStore := ⟨config, ⟨config, 0⟩⟩

/-- The store, with the tasks that have put a configuration in its place and not sent it, and the versions that the
    watchers have seen. -/
structure ConfigSystem (Task Watcher : Type) where
  store : MemoryConfigStore
  updating : Task → Option Config
  watchers : Watcher → Option Nat

/-- What can happen next. -/
inductive ConfigStep (Task Watcher : Type) where
  /-- A task calls `update`, or `save`, which is the same, and comes to the end of the lock. -/
  | update (task : Task) (config : Config)
  /-- It sends the configuration to the watchers. -/
  | send (task : Task)
  /-- `load`, or `current`. -/
  | load
  /-- `watch`. -/
  | watch (watcher : Watcher)
  /-- `rx.changed()` returns. -/
  | changed (watcher : Watcher)
  /-- `rx.borrow()`. -/
  | borrow (watcher : Watcher)

/-- What is seen of it. -/
inductive ConfigEvent (Watcher : Type) where
  | refused (error : ConfigError)
  | stored (config : Config)
  | sent (config : Config)
  | loaded (config : Config)
  | watching (watcher : Watcher)
  | changed (watcher : Watcher)
  | borrowed (watcher : Watcher) (config : Config)

variable {Task Watcher : Type}

namespace ConfigSystem

/-- Nobody has come yet. -/
def start (config : Config) : ConfigSystem Task Watcher := ⟨.new config, fun _ => none, fun _ => none⟩

/-- One step. -/
def step [DecidableEq Task] [DecidableEq Watcher] (self : ConfigSystem Task Watcher) :
    ConfigStep Task Watcher → Option (List (ConfigEvent Watcher) × ConfigSystem Task Watcher)
  | .update task config =>
    match self.updating task with
    | some _ => none
    | none =>
      match config.validate with
      | .error e => some ([.refused (.validationFailed e)], self)
      | .ok () =>
        some ([.stored config], { self with
          store := { self.store with config }
          updating := Function.update self.updating task (some config) })
  | .send task =>
    match self.updating task with
    | none => none
    | some config =>
      some ([.sent config], { self with
        store := { self.store with watchTx := self.store.watchTx.sendReplace config }
        updating := Function.update self.updating task none })
  | .load => some ([.loaded self.store.config], self)
  | .watch watcher => some ([.watching watcher], { self with watchers := Function.update self.watchers watcher (some 0) })
  | .changed watcher =>
    match self.watchers watcher with
    | none => none
    | some seen =>
      if self.store.watchTx.Changed seen then
        some ([.changed watcher], { self with
          watchers := Function.update self.watchers watcher (some self.store.watchTx.version) })
      else none
  | .borrow watcher =>
    match self.watchers watcher with
    | none => none
    | some _ => some ([.borrowed watcher self.store.watchTx.value], self)

end ConfigSystem

/-! ## Reading a record -/

/-- The configurations that were put in place. -/
def storedConfigs (events : List (ConfigEvent Watcher)) : List Config :=
  events.filterMap fun
    | .stored config => some config
    | _ => none

/-- Those that were sent to the watchers. -/
def sentConfigs (events : List (ConfigEvent Watcher)) : List Config :=
  events.filterMap fun
    | .sent config => some config
    | _ => none

theorem storedConfigs_append (events : List (ConfigEvent Watcher)) (e : ConfigEvent Watcher) :
    storedConfigs (events ++ [e]) = storedConfigs events ++ storedConfigs [e] := List.filterMap_append

theorem sentConfigs_append (events : List (ConfigEvent Watcher)) (e : ConfigEvent Watcher) :
    sentConfigs (events ++ [e]) = sentConfigs events ++ sentConfigs [e] := List.filterMap_append

/-- The last of the configurations, if there is one. -/
def lastConfig (initial : Config) (configs : List Config) : Config := configs.getLast?.getD initial

theorem lastConfig_append (initial config : Config) (configs : List Config) :
    lastConfig initial (configs ++ [config]) = config := by
  rw [lastConfig, List.getLast?_concat]
  rfl

variable [DecidableEq Watcher]

/-- Whether there has been an update at all, and one that a watcher has not taken note of. -/
def tell (watcher : Watcher) (s : Bool × Bool) : ConfigEvent Watcher → Bool × Bool
  | .sent _ => (true, true)
  | .watching watcher' => if watcher' = watcher then (s.1, s.1) else s
  | .changed watcher' => if watcher' = watcher then (s.1, false) else s
  | _ => s

/-- There is news for a watcher. -/
def news (watcher : Watcher) (events : List (ConfigEvent Watcher)) : Bool × Bool :=
  events.foldl (tell watcher) (false, false)

/-- Who reads a configuration gets the last one that was put in place, or sent. -/
def Read (initial : Config) (before : List (ConfigEvent Watcher)) : ConfigEvent Watcher → Prop
  | .loaded config => config = lastConfig initial (storedConfigs before)
  | .borrowed _ config => config = lastConfig initial (sentConfigs before)
  | _ => True

/-! ## The invariants -/

/-- **The invariant**, whatever the order. -/
structure Current (initial : Config) (s : ConfigSystem Task Watcher × List (ConfigEvent Watcher)) : Prop where
  config : s.1.store.config = lastConfig initial (storedConfigs s.2)
  value : s.1.store.watchTx.value = lastConfig initial (sentConfigs s.2)
  valid : ∀ config ∈ storedConfigs s.2, config.validate = .ok ()
  updating : ∀ task config, s.1.updating task = some config → config ∈ storedConfigs s.2
  sent : ∀ config ∈ sentConfigs s.2, config ∈ storedConfigs s.2
  any : ∀ watcher, (news watcher s.2).1 = true ↔ 0 < s.1.store.watchTx.version
  told : ∀ watcher seen, s.1.watchers watcher = some seen →
    seen ≤ s.1.store.watchTx.version ∧ ((news watcher s.2).2 = true ↔ s.1.store.watchTx.Changed seen)
  read : Backed (Read initial) s.2

/-- The invariant of updates that do not overlap: what was put in place was sent, or is about to be. -/
def Orderly [DecidableEq Task] (s : ConfigSystem Task Watcher × List (ConfigEvent Watcher)) : Prop :=
  (∀ task, s.1.updating task = none) ∧ storedConfigs s.2 = sentConfigs s.2 ∨
    ∃ task config, s.1.updating = Function.update (fun _ => none) task (some config) ∧
      storedConfigs s.2 = sentConfigs s.2 ++ [config]

/-- No task begins an update while another one is under way. -/
def OneUpdate (s : ConfigSystem Task Watcher × List (ConfigEvent Watcher)) : ConfigStep Task Watcher → Prop
  | .update _ _ => ∀ task, s.1.updating task = none
  | _ => True

section Steps

variable {initial : Config} {self next : ConfigSystem Task Watcher} {label : ConfigStep Task Watcher}
  {events seen : List (ConfigEvent Watcher)}

theorem news_append (watcher : Watcher) (events : List (ConfigEvent Watcher)) (e : ConfigEvent Watcher) :
    news watcher (events ++ [e]) = tell watcher (news watcher events) e := List.foldl_concat ..

/-- An event that only reads. -/
theorem Current.reads (h : Current initial (self, events)) (e : ConfigEvent Watcher) (hread : Read initial events e)
    (hstored : storedConfigs [e] = []) (hsent : sentConfigs [e] = []) (htell : ∀ watcher s, tell watcher s e = s) :
    Current initial (self, events ++ [e]) := by
  have hstored' : storedConfigs (events ++ [e]) = storedConfigs events := by
    rw [storedConfigs_append, hstored, List.append_nil]
  have hsent' : sentConfigs (events ++ [e]) = sentConfigs events := by
    rw [sentConfigs_append, hsent, List.append_nil]
  have hnews : ∀ watcher, news watcher (events ++ [e]) = news watcher events := by
    intro watcher
    rw [news_append, htell]
  refine ⟨?_, ?_, ?_, ?_, ?_, fun watcher => ?_, fun watcher seen hseen => ?_, ?_⟩
  · rw [hstored']
    exact h.config
  · rw [hsent']
    exact h.value
  · rw [hstored']
    exact h.valid
  · rw [hstored']
    exact h.updating
  · rw [hsent', hstored']
    exact h.sent
  · rw [hnews]
    exact h.any watcher
  · rw [hnews]
    exact h.told watcher seen hseen
  · refine backed_append h.read (backed_singleton ?_)
    rw [List.append_nil]
    exact hread

theorem Current.stored [DecidableEq Task] (h : Current initial (self, events)) (task : Task) {config : Config}
    (hvalid : config.validate = .ok ()) :
    Current initial ({ self with
      store := { self.store with config }
      updating := Function.update self.updating task (some config) }, events ++ [.stored config]) := by
  have hstored : storedConfigs (events ++ [(.stored config : ConfigEvent Watcher)]) = storedConfigs events ++ [config] :=
    storedConfigs_append ..
  have hsent : sentConfigs (events ++ [(.stored config : ConfigEvent Watcher)]) = sentConfigs events :=
    (sentConfigs_append ..).trans (List.append_nil _)
  refine ⟨?_, ?_, fun config' hmem => ?_, fun task' config' hupdating => ?_, fun config' hmem => ?_, fun watcher => ?_,
    fun watcher seen hseen => ?_, ?_⟩
  · rw [hstored, lastConfig_append]
  · rw [hsent]
    exact h.value
  · rw [hstored] at hmem
    rcases List.mem_append.mp hmem with hold | hnew
    · exact h.valid config' hold
    · rw [List.mem_singleton.mp hnew]
      exact hvalid
  · rw [hstored]
    by_cases htask : task' = task
    · subst htask
      change Function.update self.updating task' (some config) task' = some config' at hupdating
      rw [Function.update_self] at hupdating
      exact List.mem_append_right _ (List.mem_singleton.mpr (Option.some.inj hupdating).symm)
    · change Function.update self.updating task (some config) task' = some config' at hupdating
      rw [Function.update_of_ne htask] at hupdating
      exact List.mem_append_left _ (h.updating task' config' hupdating)
  · rw [hsent] at hmem
    rw [hstored]
    exact List.mem_append_left _ (h.sent config' hmem)
  · rw [news_append]
    exact h.any watcher
  · rw [news_append]
    exact h.told watcher seen hseen
  · exact backed_append h.read (backed_singleton trivial)

theorem Current.send [DecidableEq Task] (h : Current initial (self, events)) {task : Task} {config : Config}
    (hupdating : self.updating task = some config) :
    Current initial ({ self with
      store := { self.store with watchTx := self.store.watchTx.sendReplace config }
      updating := Function.update self.updating task none }, events ++ [.sent config]) := by
  have hstored : storedConfigs (events ++ [(.sent config : ConfigEvent Watcher)]) = storedConfigs events :=
    (storedConfigs_append ..).trans (List.append_nil _)
  have hsent : sentConfigs (events ++ [(.sent config : ConfigEvent Watcher)]) = sentConfigs events ++ [config] :=
    sentConfigs_append ..
  have hnews : ∀ watcher, news watcher (events ++ [(.sent config : ConfigEvent Watcher)]) = (true, true) :=
    fun watcher => news_append watcher events _
  refine ⟨?_, ?_, ?_, fun task' config' hupdating' => ?_, fun config' hmem => ?_, fun watcher => ?_,
    fun watcher seen hseen => ?_, ?_⟩
  · rw [hstored]
    exact h.config
  · rw [hsent, lastConfig_append]
    rfl
  · rw [hstored]
    exact h.valid
  · rw [hstored]
    by_cases htask : task' = task
    · subst htask
      change Function.update self.updating task' none task' = some config' at hupdating'
      rw [Function.update_self] at hupdating'
      cases hupdating'
    · change Function.update self.updating task none task' = some config' at hupdating'
      rw [Function.update_of_ne htask] at hupdating'
      exact h.updating task' config' hupdating'
  · rw [hsent] at hmem
    rw [hstored]
    rcases List.mem_append.mp hmem with hold | hnew
    · exact h.sent config' hold
    · rw [List.mem_singleton.mp hnew]
      exact h.updating task config hupdating
  · rw [hnews]
    exact iff_of_true rfl (Nat.succ_pos _)
  · have hle := (h.told watcher seen hseen).1
    rw [hnews]
    exact ⟨Nat.le_succ_of_le hle, iff_of_true rfl (Watch.changed_sendReplace hle config)⟩
  · exact backed_append h.read (backed_singleton trivial)

/-- A watcher looks, and has seen this version. -/
theorem Current.looks (h : Current initial (self, events)) (watcher : Watcher) (version : Nat) (e : ConfigEvent Watcher)
    (hread : Read initial events e) (hstored : storedConfigs [e] = []) (hsent : sentConfigs [e] = [])
    (hany : ∀ watcher' s, (tell watcher' s e).1 = s.1)
    (hothers : ∀ watcher', watcher' ≠ watcher → ∀ s, tell watcher' s e = s)
    (hle : version ≤ self.store.watchTx.version)
    (hself : (tell watcher (news watcher events) e).2 = true ↔ self.store.watchTx.Changed version) :
    Current initial ({ self with watchers := Function.update self.watchers watcher (some version) }, events ++ [e]) := by
  have hstored' : storedConfigs (events ++ [e]) = storedConfigs events := by
    rw [storedConfigs_append, hstored, List.append_nil]
  have hsent' : sentConfigs (events ++ [e]) = sentConfigs events := by
    rw [sentConfigs_append, hsent, List.append_nil]
  refine ⟨?_, ?_, ?_, ?_, ?_, fun watcher' => ?_, fun watcher' seen hseen => ?_, ?_⟩
  · rw [hstored']
    exact h.config
  · rw [hsent']
    exact h.value
  · rw [hstored']
    exact h.valid
  · rw [hstored']
    exact h.updating
  · rw [hsent', hstored']
    exact h.sent
  · rw [news_append, hany]
    exact h.any watcher'
  · change Function.update self.watchers watcher (some version) watcher' = some seen at hseen
    rw [news_append]
    by_cases hsame : watcher' = watcher
    · subst hsame
      rw [Function.update_self] at hseen
      obtain rfl := Option.some.inj hseen
      exact ⟨hle, hself⟩
    · rw [Function.update_of_ne hsame] at hseen
      rw [hothers watcher' hsame]
      exact h.told watcher' seen hseen
  · refine backed_append h.read (backed_singleton ?_)
    rw [List.append_nil]
    exact hread

/-- **One step**, whatever the order. -/
theorem current_step [DecidableEq Task] (h : Current initial (self, events))
    (hstep : self.step label = some (seen, next)) : Current initial (next, events ++ seen) := by
  cases label with
  | update task config =>
    simp only [ConfigSystem.step] at hstep
    split at hstep
    · cases hstep
    · split at hstep
      · obtain ⟨rfl, rfl⟩ := Prod.mk.inj (Option.some.inj hstep)
        exact h.reads _ trivial rfl rfl fun _ _ => rfl
      · rename_i hvalid
        obtain ⟨rfl, rfl⟩ := Prod.mk.inj (Option.some.inj hstep)
        exact h.stored task hvalid
  | send task =>
    simp only [ConfigSystem.step] at hstep
    split at hstep
    · cases hstep
    · rename_i config hupdating
      obtain ⟨rfl, rfl⟩ := Prod.mk.inj (Option.some.inj hstep)
      exact h.send hupdating
  | load =>
    obtain ⟨rfl, rfl⟩ := Prod.mk.inj (Option.some.inj hstep)
    exact h.reads _ h.config rfl rfl fun _ _ => rfl
  | watch watcher =>
    obtain ⟨rfl, rfl⟩ := Prod.mk.inj (Option.some.inj hstep)
    refine h.looks watcher 0 _ trivial rfl rfl (fun watcher' s => ?_) (fun watcher' hne s => if_neg (Ne.symm hne))
      (Nat.zero_le _) ?_
    · show (if watcher = watcher' then (s.1, s.1) else s).1 = s.1
      split <;> rfl
    · rw [show tell watcher (news watcher events) (.watching watcher) = _ from if_pos rfl]
      exact h.any watcher
  | changed watcher =>
    simp only [ConfigSystem.step] at hstep
    split at hstep
    · cases hstep
    · split at hstep
      · obtain ⟨rfl, rfl⟩ := Prod.mk.inj (Option.some.inj hstep)
        refine h.looks watcher self.store.watchTx.version _ trivial rfl rfl (fun watcher' s => ?_)
          (fun watcher' hne s => if_neg (Ne.symm hne)) (Nat.le_refl _) ?_
        · show (if watcher = watcher' then (s.1, false) else s).1 = s.1
          split <;> rfl
        · rw [show tell watcher (news watcher events) (.changed watcher) = _ from if_pos rfl]
          exact iff_of_false Bool.false_ne_true (Nat.lt_irrefl _)
      · cases hstep
  | borrow watcher =>
    simp only [ConfigSystem.step] at hstep
    split at hstep
    · cases hstep
    · obtain ⟨rfl, rfl⟩ := Prod.mk.inj (Option.some.inj hstep)
      exact h.reads _ h.value rfl rfl fun _ _ => rfl

omit [DecidableEq Watcher] in
/-- Nothing was put in place, and nothing was sent. -/
theorem Orderly.reads [DecidableEq Task] (h : Orderly (self, events)) {e : ConfigEvent Watcher}
    (hupdating : next.updating = self.updating) (hstored : storedConfigs [e] = []) (hsent : sentConfigs [e] = []) :
    Orderly (next, events ++ [e]) := by
  have hstored' : storedConfigs (events ++ [e]) = storedConfigs events := by
    rw [storedConfigs_append, hstored, List.append_nil]
  have hsent' : sentConfigs (events ++ [e]) = sentConfigs events := by
    rw [sentConfigs_append, hsent, List.append_nil]
  unfold Orderly
  rw [hstored', hsent', hupdating]
  exact h

/-- **One step**, when updates do not overlap. -/
theorem orderly_step [DecidableEq Task] (h : Orderly (self, events)) (hone : OneUpdate (self, events) label)
    (hstep : self.step label = some (seen, next)) : Orderly (next, events ++ seen) := by
  cases label with
  | update task config =>
    simp only [ConfigSystem.step] at hstep
    split at hstep
    · cases hstep
    · split at hstep
      · obtain ⟨rfl, rfl⟩ := Prod.mk.inj (Option.some.inj hstep)
        exact h.reads rfl rfl rfl
      · obtain ⟨rfl, rfl⟩ := Prod.mk.inj (Option.some.inj hstep)
        have hnone : self.updating = fun _ => none := funext hone
        have heq : storedConfigs events = sentConfigs events := by
          rcases h with ⟨-, heq⟩ | ⟨task', config', hupdating, -⟩
          · exact heq
          · have hself : self.updating task' = some config' := by
              rw [show self.updating = _ from hupdating, Function.update_self]
            rw [hone task'] at hself
            cases hself
        refine Or.inr ⟨task, config, ?_, ?_⟩
        · show Function.update self.updating task (some config) = _
          rw [hnone]
        · rw [storedConfigs_append, sentConfigs_append, heq]
          exact congrArg (· ++ [config]) (List.append_nil _).symm
  | send task =>
    simp only [ConfigSystem.step] at hstep
    split at hstep
    · cases hstep
    · rename_i config hself
      obtain ⟨rfl, rfl⟩ := Prod.mk.inj (Option.some.inj hstep)
      rcases h with ⟨hnone, -⟩ | ⟨task', config', hupdating, heq⟩
      · rw [show self.updating task = none from hnone task] at hself
        cases hself
      · rw [show self.updating = _ from hupdating] at hself
        obtain rfl : task = task' := by
          by_contra hne
          rw [Function.update_of_ne hne] at hself
          cases hself
        rw [Function.update_self] at hself
        obtain rfl := Option.some.inj hself
        refine Or.inl ⟨fun task' => ?_, ?_⟩
        · show Function.update self.updating task none task' = none
          rw [show self.updating = _ from hupdating, Function.update_idem, Function.update_apply]
          split <;> rfl
        · rw [storedConfigs_append, sentConfigs_append]
          exact (List.append_nil _).trans heq
  | load =>
    obtain ⟨rfl, rfl⟩ := Prod.mk.inj (Option.some.inj hstep)
    exact h.reads rfl rfl rfl
  | watch watcher =>
    obtain ⟨rfl, rfl⟩ := Prod.mk.inj (Option.some.inj hstep)
    exact h.reads rfl rfl rfl
  | changed watcher =>
    simp only [ConfigSystem.step] at hstep
    split at hstep
    · cases hstep
    · split at hstep
      · obtain ⟨rfl, rfl⟩ := Prod.mk.inj (Option.some.inj hstep)
        exact h.reads rfl rfl rfl
      · cases hstep
  | borrow watcher =>
    simp only [ConfigSystem.step] at hstep
    split at hstep
    · cases hstep
    · obtain ⟨rfl, rfl⟩ := Prod.mk.inj (Option.some.inj hstep)
      exact h.reads rfl rfl rfl

end Steps

/-! ## Whole runs -/

/-- What tasks and watchers may rely on. -/
structure Follows (initial : Config) (s : ConfigSystem Task Watcher × List (ConfigEvent Watcher)) : Prop where
  /-- Whatever is put in place is valid, and nothing else is sent. -/
  valid : ∀ config ∈ storedConfigs s.2, config.validate = .ok ()
  sent : ∀ config ∈ sentConfigs s.2, config ∈ storedConfigs s.2
  /-- Who loads gets the configuration put in place last, and who watches the one that was sent last. -/
  read : Backed (Read initial) s.2
  /-- A watcher is told of a change exactly if there is news for it, be it from before it came. -/
  told : ∀ watcher seen, s.1.watchers watcher = some seen →
    (s.1.store.watchTx.Changed seen ↔ (news watcher s.2).2 = true)

/-- **The store and its watchers**, in whatever order; and when updates have not overlapped and none is under way, who
    loads and who watches have the same configuration. -/
theorem watchedConfig_run [DecidableEq Task] (initial : Config) (steps : List (ConfigStep Task Watcher))
    (s : ConfigSystem Task Watcher × List (ConfigEvent Watcher))
    (hrun : run (noted ConfigSystem.step) (.start initial, []) steps = some s) :
    Follows initial s ∧
      (Meets (noted ConfigSystem.step) OneUpdate (.start initial, []) steps → (∀ task, s.1.updating task = none) →
        s.1.store.config = s.1.store.watchTx.value) := by
  have hcurrent : Current initial ((.start initial : ConfigSystem Task Watcher), []) :=
    ⟨rfl, rfl, fun _ h => absurd h List.not_mem_nil, fun _ _ h => (by cases h), fun _ h => absurd h List.not_mem_nil,
      fun _ => iff_of_false Bool.false_ne_true (Nat.lt_irrefl 0), fun _ _ h => (by cases h), backed_nil⟩
  have hend : Current initial s := by
    refine run_inv (fun s label s' hs hstep => ?_) hcurrent hrun
    obtain ⟨seen, next, hnext, rfl⟩ := noted_eq_some.mp hstep
    exact current_step hs hnext
  refine ⟨⟨hend.valid, hend.sent, hend.read, fun watcher seen hseen => (hend.told watcher seen hseen).2.symm⟩,
    fun hmeets hnone => ?_⟩
  have horderly : Orderly s := by
    refine meets_inv (fun s label s' hs hone hstep => ?_) (Or.inl ⟨fun _ => rfl, rfl⟩) hmeets hrun
    obtain ⟨seen, next, hnext, rfl⟩ := noted_eq_some.mp hstep
    exact orderly_step hs hone hnext
  rw [hend.config, hend.value]
  rcases horderly with ⟨-, heq⟩ | ⟨task, config, hupdating, -⟩
  · rw [heq]
  · have hself : s.1.updating task = some config := by rw [hupdating, Function.update_self]
    rw [hnone task] at hself
    cases hself

/-- A configuration with one listener, elsewhere. -/
def otherListener : Config := { listeners := [{ name := "other", address := "0.0.0.0:2776" }] }

/-- Two updates, and one that is refused; the watcher takes note of the first, and loads before the second is sent. -/
def updatedTwice : List (ConfigStep Bool Unit) :=
  [.update true otherListener, .send true, .watch (), .changed (), .borrow (), .update true {}, .update false oneListener,
    .load, .borrow (), .send false, .changed (), .borrow ()]

instance decidableOneUpdate [Fintype Task] (s : ConfigSystem Task Watcher × List (ConfigEvent Watcher)) :
    (label : ConfigStep Task Watcher) → Decidable (OneUpdate s label)
  | .update _ _ => inferInstanceAs (Decidable (∀ task, s.1.updating task = none))
  | .send _ => isTrue trivial
  | .load => isTrue trivial
  | .watch _ => isTrue trivial
  | .changed _ => isTrue trivial
  | .borrow _ => isTrue trivial

theorem watchedConfig_updatedTwice :
    ∃ s, run (noted ConfigSystem.step) ((.start oneListener : ConfigSystem Bool Unit), []) updatedTwice = some s ∧
      Follows oneListener s ∧ s.1.store.config = s.1.store.watchTx.value := by
  have hend : (run (noted ConfigSystem.step) ((.start oneListener : ConfigSystem Bool Unit), []) updatedTwice).any
      (fun s => decide (∀ task, s.1.updating task = none)) = true := by
    decide +kernel
  obtain ⟨s, hrun, hnone⟩ := (Option.any_eq_true _ _).mp hend
  obtain ⟨hfollows, hsame⟩ := watchedConfig_run oneListener updatedTwice s hrun
  exact ⟨s, hrun, hfollows, hsame (by decide +kernel) (of_decide_eq_true hnone)⟩

/-! ## Updates that overlap -/

/-- Nobody is updating, and nobody begins to. -/
theorem store_of_quiet [DecidableEq Task] {steps : List (ConfigStep Task Watcher)}
    {s s' : ConfigSystem Task Watcher × List (ConfigEvent Watcher)} (hnone : ∀ task, s.1.updating task = none)
    (hquiet : ∀ label ∈ steps, ∀ task config, label ≠ .update task config)
    (hrun : run (noted ConfigSystem.step) s steps = some s') : s'.1.store = s.1.store := by
  have hstep : ∀ (t : ConfigSystem Task Watcher × List (ConfigEvent Watcher)) label t',
      t.1.store = s.1.store ∧ (∀ task, t.1.updating task = none) → (∀ task config, label ≠ .update task config) →
        noted ConfigSystem.step t label = some t' →
          t'.1.store = s.1.store ∧ ∀ task, t'.1.updating task = none := by
    rintro ⟨self, events⟩ label t' ⟨hstore, hnone⟩ hquiet hstep
    obtain ⟨seen, next, hnext, rfl⟩ := noted_eq_some.mp hstep
    cases label with
    | update task config => exact absurd rfl (hquiet task config)
    | send task =>
      simp only [ConfigSystem.step, show self.updating task = none from hnone task] at hnext
      cases hnext
    | load =>
      obtain ⟨rfl, rfl⟩ := Prod.mk.inj (Option.some.inj hnext)
      exact ⟨hstore, hnone⟩
    | watch watcher =>
      obtain ⟨rfl, rfl⟩ := Prod.mk.inj (Option.some.inj hnext)
      exact ⟨hstore, hnone⟩
    | changed watcher =>
      simp only [ConfigSystem.step] at hnext
      split at hnext
      · cases hnext
      · split at hnext
        · obtain ⟨rfl, rfl⟩ := Prod.mk.inj (Option.some.inj hnext)
          exact ⟨hstore, hnone⟩
        · cases hnext
    | borrow watcher =>
      simp only [ConfigSystem.step] at hnext
      split at hnext
      · cases hnext
      · obtain ⟨rfl, rfl⟩ := Prod.mk.inj (Option.some.inj hnext)
        exact ⟨hstore, hnone⟩
  exact (meets_inv hstep ⟨rfl, hnone⟩ (meets_of_forall hquiet s) hrun).1

/-- **The store and its watchers part** when two updates overlap: in the end nobody is updating, the watcher has taken
    note of everything, and it has one configuration while the store has the other; until the next update. -/
theorem parted_run [DecidableEq Task] (initial config config' : Config) (hvalid : config.validate = .ok ())
    (hvalid' : config'.validate = .ok ()) (task task' : Task) (hne : task ≠ task') (watcher : Watcher) :
    ∃ (steps : List (ConfigStep Task Watcher)) (s : ConfigSystem Task Watcher × List (ConfigEvent Watcher)),
      run (noted ConfigSystem.step) (.start initial, []) steps = some s ∧ (∀ task, s.1.updating task = none) ∧
        (∃ seen, s.1.watchers watcher = some seen ∧ ¬ s.1.store.watchTx.Changed seen) ∧
        ∀ (later : List (ConfigStep Task Watcher)) s', (∀ label ∈ later, ∀ task config, label ≠ .update task config) →
          run (noted ConfigSystem.step) s later = some s' →
            s'.1.store.config = config' ∧ s'.1.store.watchTx.value = config := by
  let steps : List (ConfigStep Task Watcher) :=
    [.watch watcher, .update task config, .update task' config', .send task', .send task, .changed watcher]
  have hrun : ∃ s, run (noted ConfigSystem.step) ((.start initial : ConfigSystem Task Watcher), []) steps = some s ∧
      (∀ task, s.1.updating task = none) ∧ s.1.watchers watcher = some s.1.store.watchTx.version ∧
      s.1.store.config = config' ∧ s.1.store.watchTx.value = config := by
    simp [steps, run_cons, noted, ConfigSystem.step, ConfigSystem.start, MemoryConfigStore.new, hvalid, hvalid', hne,
      hne.symm, Watch.Changed, Function.update_apply]
    exact fun _ hother _ => hother
  obtain ⟨s, hrun, hnone, hseen, hconfig, hvalue⟩ := hrun
  refine ⟨steps, s, hrun, hnone, ⟨_, hseen, Nat.lt_irrefl _⟩, fun later s' hquiet hlater => ?_⟩
  rw [store_of_quiet hnone hquiet hlater]
  exact ⟨hconfig, hvalue⟩

theorem parted_twoListeners :
    ∃ (steps : List (ConfigStep Bool Unit)) (s : ConfigSystem Bool Unit × List (ConfigEvent Unit)),
      run (noted ConfigSystem.step) (.start oneListener, []) steps = some s ∧ (∀ task, s.1.updating task = none) ∧
        (∃ seen, s.1.watchers () = some seen ∧ ¬ s.1.store.watchTx.Changed seen) ∧
        ∀ (later : List (ConfigStep Bool Unit)) s', (∀ label ∈ later, ∀ task config, label ≠ .update task config) →
          run (noted ConfigSystem.step) s later = some s' →
            s'.1.store.config = otherListener ∧ s'.1.store.watchTx.value = oneListener :=
  parted_run oneListener oneListener otherListener rfl rfl true false (by decide) ()

end Smppd
