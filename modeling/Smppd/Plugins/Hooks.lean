/-
  HOOKS (`src/plugins/hooks.rs`): the handlers that plugins register for the points of the message pipeline, and
  the chain of them that is executed at a point.

  `HookRegistry::register` puts the handler at the end of the list of its point and sorts the list again, by
  priority; the sort is stable, and a handler that is unregistered leaves the others in their places.  So at any
  time the list of a point holds the handlers that are still registered in ascending priority, and in the order
  of registration among equals (`inOrder_handlersAt`).

  `execute` runs the list until a handler returns `Stop` or an error.  `SkipPriority` is documented as "skip
  remaining hooks of same priority", and the code that should do so CONTINUES WITH THE NEXT HANDLER: the chain is
  the documented one if and only if none of the same priority is left whenever a handler asks for that
  (`execute_runs_iff`).

  A handler is any function of the context and of the world it runs in.
-/
import Smppd.Lib.Rank
import Smppd.Lib.Table
import Smppd.Store.Types

set_option linter.unusedVariables false

namespace Smppd.Plugins

open Smppd.Store Table

/-! ## The registry -/

/-- Plugin error types. -/
inductive PluginError where
  | notFound (name : String)
  | loadFailed (message : String)
  | initFailed (message : String)
  | executionFailed (message : String)
  | timeout (after : Duration)
  | memoryLimitExceeded
  | invalidConfig (message : String)
  | hookNotSupported (message : String)
  | luaError (message : String)
  | wasmError (message : String)
  | nativeError (message : String)
  | webhookError (message : String)
  | io (message : String)
  deriving DecidableEq, Repr

/-- Hook points in the message processing pipeline. -/
inductive HookPoint where
  | onMessageReceived
  | beforeFilter
  | afterFilter
  | beforeRoute
  | afterRoute
  | beforeForward
  | afterForward
  | onDeliveryReceipt
  | onMessageFailed
  | onMessageDelivered
  | onConfigReload
  | onEndpointDown
  | onEndpointUp
  | onShutdown
  deriving DecidableEq, Repr

/-- Result of executing a hook. -/
inductive HookAction where
  /-- Continue to next hook handler. -/
  | continue
  /-- Stop hook chain execution. -/
  | stop
  /-- Continue but skip remaining hooks of same priority. -/
  | skipPriority
  deriving DecidableEq, Repr

/-- Context passed to hook handlers. -/
structure HookContext where
  /-- The hook point being executed. -/
  hookPoint : HookPoint
  message : Option StoredMessage := none
  routeName : Option String := none
  clusterName : Option String := none
  endpoint : Option String := none
  error : Option String := none
  data : Tbl String String := ∅

/-- `HookContext::new`. -/
def HookContext.new (hookPoint : HookPoint) : HookContext := { hookPoint }

/-- A registered hook handler. -/
structure HookHandler (W : Type) where
  /-- Plugin name that registered this handler. -/
  pluginName : String
  /-- Handler priority (lower = called first). -/
  priority : Int
  /-- The handler function. -/
  handler : HookContext → W → Except PluginError HookAction × W

/-- Registry for hook handlers. -/
structure HookRegistry (W : Type) where
  handlers : Tbl HookPoint (List (HookHandler W))

/-- What came of a hook chain: the handlers that were run, in the order they were, what `execute` returns, and
    the world it leaves. -/
structure Execution (W : Type) where
  ran : List (HookHandler W)
  result : Except PluginError Unit
  world : W

variable {W : Type}

/-- The same after one more handler in front. -/
def Execution.preceded (handler : HookHandler W) (self : Execution W) : Execution W :=
  { self with ran := handler :: self.ran }

/-- `sort_by_key(|h| h.priority)`, which is stable. -/
def sortByPriority (handlers : List (HookHandler W)) : List (HookHandler W) :=
  handlers.insertionSort fun x y => x.priority ≤ y.priority

/-- The loop of `execute`. -/
def runHandlers (ctx : HookContext) : List (HookHandler W) → W → Execution W
  | [], world => ⟨[], .ok (), world⟩
  | handler :: handlers, world =>
    match handler.handler ctx world with
    | (.error e, world) => ⟨[handler], .error e, world⟩
    | (.ok .continue, world) => (runHandlers ctx handlers world).preceded handler
    | (.ok .stop, world) => ⟨[handler], .ok (), world⟩
    -- "simplified: just continue for now"
    | (.ok .skipPriority, world) => (runHandlers ctx handlers world).preceded handler

namespace HookRegistry

/-- `HookRegistry::new`. -/
def new : HookRegistry W := ⟨∅⟩

/-- What `handlers.get` finds for a point, nothing being an empty list. -/
def handlersAt (hookPoint : HookPoint) (self : HookRegistry W) : List (HookHandler W) :=
  (self.handlers.lookup hookPoint).getD []

/-- `HookRegistry::register`. -/
def register (hookPoint : HookPoint) (handler : HookHandler W) (self : HookRegistry W) : HookRegistry W :=
  ⟨self.handlers.insert hookPoint (sortByPriority (self.handlersAt hookPoint ++ [handler]))⟩

/-- `HookRegistry::unregister_plugin`. -/
def unregisterPlugin (pluginName : String) (self : HookRegistry W) : HookRegistry W :=
  ⟨mapVals (fun _ handlers => handlers.filter fun h => h.pluginName ≠ pluginName) self.handlers⟩

/-- `HookRegistry::execute`. -/
def execute (ctx : HookContext) (world : W) (self : HookRegistry W) : Execution W :=
  match self.handlers.lookup ctx.hookPoint with
  | some handlers => runHandlers ctx handlers world
  | none => ⟨[], .ok (), world⟩

theorem execute_eq (ctx : HookContext) (world : W) (self : HookRegistry W) :
    self.execute ctx world = runHandlers ctx (self.handlersAt ctx.hookPoint) world := by
  rw [execute, handlersAt]
  cases self.handlers.lookup ctx.hookPoint <;> rfl

theorem handlersAt_register (point hookPoint : HookPoint) (handler : HookHandler W) (self : HookRegistry W) :
    (self.register hookPoint handler).handlersAt point =
      if point = hookPoint then sortByPriority (self.handlersAt hookPoint ++ [handler])
      else self.handlersAt point := by
  rw [handlersAt, register]
  split
  · rename_i heq
    rw [heq, AList.lookup_insert, Option.getD_some]
  · rename_i hne
    rw [AList.lookup_insert_ne hne]
    rfl

theorem handlersAt_unregisterPlugin (point : HookPoint) (pluginName : String) (self : HookRegistry W) :
    (self.unregisterPlugin pluginName).handlersAt point =
      (self.handlersAt point).filter fun h => h.pluginName ≠ pluginName := by
  rw [handlersAt, unregisterPlugin, lookup_mapVals, handlersAt]
  cases self.handlers.lookup point <;> rfl

end HookRegistry

/-! ## What is registered -/

/-- A call that changes the registry. -/
inductive Registering (W : Type) where
  | register (hookPoint : HookPoint) (handler : HookHandler W)
  | unregisterPlugin (pluginName : String)

/-- What a call does to the registry. -/
def HookRegistry.applied (self : HookRegistry W) : Registering W → HookRegistry W
  | .register hookPoint handler => self.register hookPoint handler
  | .unregisterPlugin pluginName => self.unregisterPlugin pluginName

/-- The registry after some calls. -/
def HookRegistry.after (calls : List (Registering W)) : HookRegistry W := calls.foldl applied new

/-- What a call does to the handlers that are registered for a point, in the order of their registration. -/
def Registering.registered (point : HookPoint) (handlers : List (HookHandler W)) :
    Registering W → List (HookHandler W)
  | .register hookPoint handler => if point = hookPoint then handlers ++ [handler] else handlers
  | .unregisterPlugin pluginName => handlers.filter fun h => h.pluginName ≠ pluginName

/-- **The remaining handlers** of a point: those registered for it and not unregistered since, in the order of
    their registration. -/
def remaining (point : HookPoint) (calls : List (Registering W)) : List (HookHandler W) :=
  calls.foldl (Registering.registered point) []

/-- The handlers in ascending priority, and as they were registered among equals. -/
structure InOrder (registered handlers : List (HookHandler W)) : Prop where
  perm : handlers.Perm registered
  ascending : handlers.Pairwise fun x y => x.priority ≤ y.priority
  stable : ∀ priority, (handlers.filter fun h => h.priority = priority) =
    registered.filter fun h => h.priority = priority

theorem inOrder_sortByPriority (handlers : List (HookHandler W)) : InOrder handlers (sortByPriority handlers) := by
  refine ⟨List.perm_insertionSort _ _, List.pairwise_insertionSort _ _, fun priority => ?_⟩
  refine Rank.filter_insertionSort_of_equal _ (fun a b ha hb => ?_) handlers
  rw [of_decide_eq_true ha, of_decide_eq_true hb]

/-- There is one such order: handlers that ascend are told apart by their priorities and, among equals, by the
    list of these. -/
theorem InOrder.unique {registered l l' : List (HookHandler W)} (h : InOrder registered l)
    (h' : InOrder registered l') : l = l' := by
  refine Rank.eq_of_filter_key (fun handler => handler.priority) h.ascending h'.ascending fun priority => ?_
  exact (h.stable priority).trans (h'.stable priority).symm

/-- **The list of a point is what is registered for it, sorted**, whatever was registered and unregistered. -/
theorem handlersAt_after (point : HookPoint) (calls : List (Registering W)) :
    (HookRegistry.after calls).handlersAt point = sortByPriority (remaining point calls) := by
  induction calls using List.reverseRecOn with
  | nil => rfl
  | append_singleton calls call ih =>
    rw [HookRegistry.after, List.foldl_append, remaining, List.foldl_append, ← HookRegistry.after, ← remaining]
    simp only [List.foldl_cons, List.foldl_nil]
    cases call with
    | register hookPoint handler =>
      rw [HookRegistry.applied, HookRegistry.handlersAt_register, Registering.registered]
      by_cases heq : point = hookPoint
      · subst heq
        rw [if_pos rfl, if_pos rfl, ih, sortByPriority, sortByPriority, Rank.insertionSort_append_insertionSort]
        rfl
      · rw [if_neg heq, if_neg heq, ih]
    | unregisterPlugin pluginName =>
      rw [HookRegistry.applied, HookRegistry.handlersAt_unregisterPlugin, Registering.registered, ih, sortByPriority,
        Rank.filter_insertionSort]
      rfl

/-- **The order of the chain.** -/
theorem inOrder_handlersAt (point : HookPoint) (calls : List (Registering W)) :
    InOrder (remaining point calls) ((HookRegistry.after calls).handlersAt point) := by
  rw [handlersAt_after]
  exact inOrder_sortByPriority _

/-! ## The documented chain -/

/-- **How a chain of handlers is to be executed.**  `Runs ctx handlers world e`: with these handlers left, `e` is
    what is run of them, what is returned and the world that is left. -/
inductive Runs (ctx : HookContext) : List (HookHandler W) → W → Execution W → Prop
  | done (world : W) : Runs ctx [] world ⟨[], .ok (), world⟩
  | error {handler : HookHandler W} {handlers : List (HookHandler W)} {world world' : W} {e : PluginError}
      (h : handler.handler ctx world = (.error e, world')) :
      Runs ctx (handler :: handlers) world ⟨[handler], .error e, world'⟩
  | stop {handler : HookHandler W} {handlers : List (HookHandler W)} {world world' : W}
      (h : handler.handler ctx world = (.ok .stop, world')) :
      Runs ctx (handler :: handlers) world ⟨[handler], .ok (), world'⟩
  | continue {handler : HookHandler W} {handlers : List (HookHandler W)} {world world' : W} {e : Execution W}
      (h : handler.handler ctx world = (.ok .continue, world')) (rest : Runs ctx handlers world' e) :
      Runs ctx (handler :: handlers) world (e.preceded handler)
  /-- None of the same priority is run any more. -/
  | skipPriority {handler : HookHandler W} {handlers : List (HookHandler W)} {world world' : W} {e : Execution W}
      (h : handler.handler ctx world = (.ok .skipPriority, world'))
      (rest : Runs ctx (handlers.filter fun later => later.priority ≠ handler.priority) world' e) :
      Runs ctx (handler :: handlers) world (e.preceded handler)

/-- Each handler is run at most once, and they are run in their order. -/
theorem Runs.sublist {ctx : HookContext} {handlers : List (HookHandler W)} {world : W} {e : Execution W}
    (h : Runs ctx handlers world e) : e.ran.Sublist handlers := by
  induction h with
  | done world => exact List.Sublist.refl []
  | error h => exact (List.nil_sublist _).cons_cons _
  | stop h => exact (List.nil_sublist _).cons_cons _
  | «continue» h rest ih => exact ih.cons_cons _
  | skipPriority h rest ih => exact (ih.trans List.filter_sublist).cons_cons _

/-- **What a chain does** is what its first handler says. -/
theorem runs_cons_iff {ctx : HookContext} {handler : HookHandler W} {handlers : List (HookHandler W)} {world : W}
    {e : Execution W} :
    Runs ctx (handler :: handlers) world e ↔
      match handler.handler ctx world with
      | (.error error, world') => e = ⟨[handler], .error error, world'⟩
      | (.ok .stop, world') => e = ⟨[handler], .ok (), world'⟩
      | (.ok .continue, world') => ∃ rest, Runs ctx handlers world' rest ∧ e = rest.preceded handler
      | (.ok .skipPriority, world') =>
        ∃ rest, Runs ctx (handlers.filter fun later => later.priority ≠ handler.priority) world' rest ∧
          e = rest.preceded handler := by
  constructor
  · intro h
    cases h with
    | error h => rw [h]
    | stop h => rw [h]
    | «continue» h rest =>
      rw [h]
      exact ⟨_, rest, rfl⟩
    | skipPriority h rest =>
      rw [h]
      exact ⟨_, rest, rfl⟩
  · rcases hsaid : handler.handler ctx world with ⟨_ | _ | _ | _, world'⟩
    · rintro rfl
      exact .error hsaid
    · rintro ⟨rest, hrest, rfl⟩
      exact .continue hsaid hrest
    · rintro rfl
      exact .stop hsaid
    · rintro ⟨rest, hrest, rfl⟩
      exact .skipPriority hsaid hrest

theorem preceded_inj {handler : HookHandler W} {e e' : Execution W} :
    e.preceded handler = e'.preceded handler ↔ e = e' := by
  cases e
  cases e'
  simp only [Execution.preceded, Execution.mk.injEq, List.cons.injEq, true_and]

/-- A chain that continues. -/
theorem exists_preceded_iff {handler : HookHandler W} {P : Execution W → Prop} {e : Execution W} :
    (∃ rest, P rest ∧ e.preceded handler = rest.preceded handler) ↔ P e := by
  simp only [preceded_inj]
  exact ⟨fun ⟨rest, hrest, hsame⟩ => hsame ▸ hrest, fun h => ⟨e, h, rfl⟩⟩

/-! ## The chain of the code -/

/-- **No handler is to be skipped**: whenever a handler that is run asks to skip its priority, none of the same
    priority is left. -/
def NothingToSkip (ctx : HookContext) : List (HookHandler W) → W → Prop
  | [], _ => True
  | handler :: handlers, world =>
    match handler.handler ctx world with
    | (.error _, _) => True
    | (.ok .stop, _) => True
    | (.ok .continue, world) => NothingToSkip ctx handlers world
    | (.ok .skipPriority, world) =>
      (∀ later ∈ handlers, later.priority ≠ handler.priority) ∧ NothingToSkip ctx handlers world

/-- The code runs the first of the handlers in any case. -/
theorem mem_ran_runHandlers (ctx : HookContext) (handler : HookHandler W) (handlers : List (HookHandler W))
    (world : W) : handler ∈ (runHandlers ctx (handler :: handlers) world).ran := by
  rw [runHandlers]
  split <;> exact List.mem_cons_self

/-- **The loop follows its documentation** on handlers in ascending priority exactly when there is nothing to
    skip.  By induction over the handlers: one of the same priority would be the next, and the code runs it. -/
theorem runs_runHandlers_iff (ctx : HookContext) {handlers : List (HookHandler W)}
    (hsorted : handlers.Pairwise fun x y => x.priority ≤ y.priority) (world : W) :
    Runs ctx handlers world (runHandlers ctx handlers world) ↔ NothingToSkip ctx handlers world := by
  induction handlers generalizing world with
  | nil => exact iff_of_true (.done world) trivial
  | cons handler handlers ih =>
    obtain ⟨hleast, hrest⟩ := List.pairwise_cons.mp hsorted
    rw [runs_cons_iff, runHandlers, NothingToSkip]
    rcases handler.handler ctx world with ⟨_ | _ | _ | _, world⟩
    · exact iff_of_true rfl trivial
    · exact exists_preceded_iff.trans (ih hrest world)
    · exact iff_of_true rfl trivial
    · refine exists_preceded_iff.trans ?_
      by_cases hnone : ∀ later ∈ handlers, later.priority ≠ handler.priority
      · have hall : (handlers.filter fun later => later.priority ≠ handler.priority) = handlers :=
          List.filter_eq_self.mpr fun later hlater => decide_eq_true (hnone later hlater)
        rw [hall, ih hrest world]
        exact (and_iff_right hnone).symm
      · refine iff_of_false (fun hruns => ?_) fun h => hnone h.1
        cases handlers with
        | nil => exact hnone fun later hlater => absurd hlater List.not_mem_nil
        | cons next handlers =>
          -- the next one has the same priority, for one behind it has and the priorities ascend
          have hnext : next.priority = handler.priority := by
            push Not at hnone
            obtain ⟨later, hlater, heq⟩ := hnone
            refine Int.le_antisymm ?_ (hleast next List.mem_cons_self)
            rcases List.mem_cons.mp hlater with rfl | hlater
            · exact heq.le
            · exact heq ▸ (List.pairwise_cons.mp hrest).1 later hlater
          have hkept := hruns.sublist.subset (mem_ran_runHandlers ctx next handlers world)
          exact of_decide_eq_true (List.mem_filter.mp hkept).2 hnext

/-- **Hook chains**: whatever has been registered and unregistered, `execute` runs the remaining handlers of the
    point in ascending priority and in registration order among equals, each at most once, as the actions are
    documented, if and only if no handler that it runs asks to skip its priority while one of the same priority
    is left. -/
theorem execute_runs_iff (calls : List (Registering W)) (ctx : HookContext) (world : W) :
    (∃ handlers, InOrder (remaining ctx.hookPoint calls) handlers ∧
        Runs ctx handlers world ((HookRegistry.after calls).execute ctx world) ∧
        ((HookRegistry.after calls).execute ctx world).ran.Sublist handlers) ↔
      NothingToSkip ctx ((HookRegistry.after calls).handlersAt ctx.hookPoint) world := by
  have hchain := inOrder_handlersAt ctx.hookPoint calls
  rw [HookRegistry.execute_eq, ← runs_runHandlers_iff ctx hchain.ascending world]
  constructor
  · rintro ⟨handlers, horder, hruns, -⟩
    rw [horder.unique hchain] at hruns
    exact hruns
  · exact fun hruns => ⟨_, hchain, hruns, hruns.sublist⟩

/-- Two handlers of the same priority, the first of which asks to skip it: both are run. -/
def skippingCalls : List (Registering Unit) :=
  [.register .beforeRoute ⟨"a", 10, fun _ world => (.ok .skipPriority, world)⟩,
    .register .beforeRoute ⟨"b", 10, fun _ world => (.ok .continue, world)⟩]

theorem skipPriority_ignored :
    ((HookRegistry.after skippingCalls).execute (.new .beforeRoute) ()).ran.map
        (fun h => h.pluginName) = ["a", "b"] ∧
      ¬ ∃ handlers, InOrder (remaining .beforeRoute skippingCalls) handlers ∧
        Runs (.new .beforeRoute) handlers ()
          ((HookRegistry.after skippingCalls).execute (.new .beforeRoute) ()) ∧
        ((HookRegistry.after skippingCalls).execute (.new .beforeRoute) ()).ran.Sublist
          handlers := by
  have hchain := inOrder_handlersAt .beforeRoute skippingCalls
  refine ⟨by decide +kernel, ?_⟩
  rintro ⟨handlers, horder, hruns, -⟩
  rw [horder.unique hchain, HookRegistry.execute_eq] at hruns
  have hnone := (runs_runHandlers_iff _ hchain.ascending ()).mp hruns
  exact hnone.1 ⟨"b", 10, fun _ world => (.ok .continue, world)⟩ List.mem_cons_self rfl

end Smppd.Plugins
