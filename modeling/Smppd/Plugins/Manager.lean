/-
  LOADING AND UNLOADING PLUGINS (`src/plugins/mod.rs`): what is left of a plugin when a call of the manager fails.

  `unload_plugin` takes the plugin out of the table, shuts it down, and unregisters its hook handlers; as no plugin
  fails to shut down, it fails only when there is no such plugin.  `reload_plugin` is an unload and then a load of
  the same configuration, and a load can fail in as many ways as there are things to a plugin: a script that cannot
  be read or does not run, an `initialize` that fails, an HTTP client that cannot be built.  There is no way back
  then: the call fails, and the old plugin is gone with its handlers (`plugins_atomic_iff`).
-/
import Smppd.Plugins.Loader

set_option linter.unusedVariables false

namespace Smppd.Plugins

open Smppd.Store Table Fallible

variable {R C Y W : Type}

/-- Plugin wrapper that holds the actual plugin implementation. -/
structure PluginInstance (R C Y : Type) where
  plugin : Plugin R C Y
  config : PluginConfig Y
  enabled : Bool

/-- Plugin manager for loading and managing plugins. -/
structure PluginManager (R C Y W : Type) where
  plugins : Tbl String (PluginInstance R C Y)
  hooks : HookRegistry W
  pluginDir : Option String

/-- What a call of the manager returns, and what it leaves. -/
structure Managed (R C Y W : Type) where
  result : Except PluginError Unit
  manager : PluginManager R C Y W
  world : W

/-! ## The calls -/

/-- `Path::is_absolute`. -/
def isAbsolute (path : String) : Bool := path.toList.head? = some '/'

/-- `Path::join`, for a path that is not absolute. -/
def joinPath (base path : String) : String :=
  if base.toList.getLast?.all (· = '/') then base ++ path else base ++ "/" ++ path

/-- `resolve_path`, for a path that is given. -/
def resolved (path : String) (baseDir : Option String) : String :=
  if isAbsolute path then path
  else match baseDir with
    | some base => joinPath base path
    | none => path

/-- `resolve_path`. -/
def resolvePath (path : Option String) (baseDir : Option String) : Except PluginError String :=
  match path with
  | none => .error (.invalidConfig "plugin path required")
  | some path => .ok (resolved path baseDir)

/-- The context that `load_plugin` initializes a plugin with. -/
def contextOf (config : PluginConfig Y) (baseDir : Option String) : PluginContext Y :=
  { pluginName := config.name, config := config.config, pluginDir := baseDir }

/-- The first step of `load_plugin`: the plugin is made. -/
def makePlugin (runtime : Runtime R C Y W) (config : PluginConfig Y) (baseDir : Option String) :
    Effect W PluginError (Plugin R C Y) :=
  match config.pluginType with
  | .lua => do
    let path ← Effect.ofExcept (resolvePath config.path baseDir)
    let plugin ← loadLua runtime path config
    pure (.lua plugin)
  | .wasm => Effect.ofExcept (.error (.loadFailed "WASM plugins not yet implemented"))
  | .native => Effect.ofExcept (.error (.loadFailed "Native plugins not yet implemented"))
  | .webhook => do
    let url ← Effect.ofExcept (config.url.elim (.error (.invalidConfig "webhook requires url")) .ok)
    let plugin ← WebhookPlugin.new runtime config.name url config
    pure (.webhook plugin)

/-- The plugin is made and initialized. -/
def startPlugin (runtime : Runtime R C Y W) (config : PluginConfig Y) (baseDir : Option String) :
    Effect W PluginError (Plugin R C Y) := do
  let plugin ← makePlugin runtime config baseDir
  plugin.initializePlugin runtime (contextOf config baseDir)
  pure plugin

namespace PluginManager

variable (runtime : Runtime R C Y W)

/-- `load_plugin`. -/
def loadPlugin (config : PluginConfig Y) (baseDir : Option String) (world : W) (self : PluginManager R C Y W) :
    Managed R C Y W :=
  match startPlugin runtime config baseDir world with
  | (.error e, world) => ⟨.error e, self, world⟩
  | (.ok plugin, world) =>
    ⟨.ok (), { self with plugins := self.plugins.insert config.name ⟨plugin, config, true⟩ }, world⟩

/-- `unload_plugin`. -/
def unloadPlugin (name : String) (world : W) (self : PluginManager R C Y W) : Managed R C Y W :=
  match self.plugins.lookup name with
  | none => ⟨.error (.notFound name), self, world⟩
  | some loaded =>
    let removed := { self with plugins := self.plugins.erase name }
    match loaded.plugin.shutdown runtime world with
    | (.error e, world) => ⟨.error e, removed, world⟩
    | (.ok _, world) => ⟨.ok (), { removed with hooks := removed.hooks.unregisterPlugin name }, world⟩

/-- `reload_plugin`. -/
def reloadPlugin (name : String) (world : W) (self : PluginManager R C Y W) : Managed R C Y W :=
  match self.plugins.lookup name with
  | none => ⟨.error (.notFound name), self, world⟩
  | some loaded =>
    match self.unloadPlugin runtime name world with
    | ⟨.error e, self, world⟩ => ⟨.error e, self, world⟩
    | ⟨.ok _, self, world⟩ => self.loadPlugin runtime loaded.config self.pluginDir world

end PluginManager

/-! ## Failing without a trace -/

/-- The same plugins are loaded, with the same configurations, and the same hook handlers are registered. -/
structure Unchanged (before after : PluginManager R C Y W) : Prop where
  configs : ∀ name, (after.plugins.lookup name).map PluginInstance.config =
    (before.plugins.lookup name).map PluginInstance.config
  handlers : ∀ point, after.hooks.handlersAt point = before.hooks.handlersAt point

/-- A call that fails has changed nothing. -/
def AtomicCall (before : PluginManager R C Y W) (call : Managed R C Y W) : Prop :=
  ∀ e, call.result = .error e → Unchanged before call.manager

theorem Unchanged.refl (manager : PluginManager R C Y W) : Unchanged manager manager :=
  ⟨fun _ => rfl, fun _ => rfl⟩

/-- A plugin that was loaded is not any more. -/
theorem not_unchanged_of_lookup {before after : PluginManager R C Y W} {name : String}
    {loaded : PluginInstance R C Y} (hbefore : before.plugins.lookup name = some loaded)
    (hafter : after.plugins.lookup name = none) : ¬ Unchanged before after := by
  intro h
  have hconfig := h.configs name
  rw [hbefore, hafter] at hconfig
  exact absurd hconfig (Option.some_ne_none _).symm

/-! ## What can go wrong -/

/-- **A configuration can be loaded**: a Lua plugin has a path and its script can be loaded, or a webhook has a URL
    and its client can be built.  The other types are not implemented. -/
def Loads (runtime : Runtime R C Y W) (config : PluginConfig Y) (baseDir : Option String) (world : W) : Prop :=
  match config.pluginType with
  | .lua => ∃ path, config.path = some path ∧ LoadsLua runtime (resolved path baseDir) config world
  | .webhook => config.url ≠ none ∧ LoadsWebhook runtime config world
  | .wasm => False
  | .native => False

variable {runtime : Runtime R C Y W} {manager : PluginManager R C Y W} {world : W} {name : String}
  {config : PluginConfig Y} {baseDir : Option String} {loaded : PluginInstance R C Y}

/-- A plugin starts when it is made, and then initialized. -/
theorem exists_startPlugin_eq_ok_iff :
    (∃ plugin w, startPlugin runtime config baseDir world = (.ok plugin, w)) ↔
      ∃ plugin w₁, makePlugin runtime config baseDir world = (.ok plugin, w₁) ∧
        ∃ w, plugin.initializePlugin runtime (contextOf config baseDir) w₁ = (.ok (), w) := by
  constructor
  · rintro ⟨plugin, w, h⟩
    obtain ⟨made, w₁, hmade, hrest⟩ := Effect.bind_eq_ok.mp h
    obtain ⟨⟨⟩, w₂, hinit, -⟩ := Effect.bind_eq_ok.mp hrest
    exact ⟨made, w₁, hmade, w₂, hinit⟩
  · rintro ⟨plugin, w₁, hmade, w₂, hinit⟩
    exact ⟨plugin, w₂, Effect.bind_eq_ok.mpr ⟨plugin, w₁, hmade, Effect.bind_eq_ok.mpr ⟨(), w₂, hinit, rfl⟩⟩⟩

/-- A Lua plugin starts when its script can be loaded. -/
theorem exists_loadLua_iff {path : String} :
    (∃ plugin w₁, loadLua runtime path config world = (.ok plugin, w₁) ∧
        ∃ w, plugin.initializePlugin runtime.mlua (contextOf config baseDir) w₁ = (.ok (), w)) ↔
      LoadsLua runtime path config world := by
  simp only [LuaPlugin.exists_initializePlugin_eq_ok_iff, loadLua_eq_ok]
  constructor
  · rintro ⟨plugin, w₁, ⟨script, v₁, hread, lua, v₂, hsandbox, v₃, hexec, table, v₄, htable, hmade⟩, hinit⟩
    refine ⟨script, v₁, hread, lua, v₂, hsandbox, v₃, hexec, table, v₄, htable, ?_⟩
    have hlua : plugin.lua = lua := (congrArg (fun p => p.1.lua) hmade).symm
    rw [hlua] at hinit
    rw [hmade]
    exact hinit
  · rintro ⟨script, v₁, hread, lua, v₂, hsandbox, v₃, hexec, table, v₄, htable, hinit⟩
    exact ⟨_, _, ⟨script, v₁, hread, lua, v₂, hsandbox, v₃, hexec, table, v₄, htable, rfl⟩, hinit⟩

/-- **When a plugin starts** is said by its configuration, and by what the crates make of it. -/
theorem startPlugin_iff :
    (∃ plugin w, startPlugin runtime config baseDir world = (.ok plugin, w)) ↔
      Loads runtime config baseDir world := by
  rw [exists_startPlugin_eq_ok_iff, makePlugin, Loads]
  cases config.pluginType with
  | lua =>
    rw [Effect.exists_ofExcept_bind]
    cases hpath : config.path with
    | none => exact iff_of_false (by rintro ⟨path, hresolved, -⟩; cases hresolved) (by rintro ⟨path, hnone, -⟩; cases hnone)
    | some path =>
      simp only [Effect.exists_bind_pure, resolvePath, Except.ok.injEq, Option.some.injEq, exists_eq_left']
      exact exists_loadLua_iff
  | wasm => exact iff_of_false (by rintro ⟨plugin, w₁, hmade, -⟩; cases hmade) id
  | native => exact iff_of_false (by rintro ⟨plugin, w₁, hmade, -⟩; cases hmade) id
  | webhook =>
    rw [Effect.exists_ofExcept_bind]
    cases hurl : config.url with
    | none => exact iff_of_false (by rintro ⟨url, hnone, -⟩; cases hnone) fun h => h.1 rfl
    | some url =>
      simp only [Effect.exists_bind_pure, Option.elim_some, Except.ok.injEq, exists_eq_left']
      rw [← WebhookPlugin.exists_new_eq_ok_iff config.name url, and_iff_right nofun]
      constructor
      · rintro ⟨plugin, w₁, hmade, -⟩
        exact ⟨plugin, w₁, hmade⟩
      · rintro ⟨plugin, w₁, hmade⟩
        exact ⟨plugin, w₁, hmade, plugin.exists_initializePlugin_eq_ok runtime (contextOf config baseDir) w₁⟩

namespace PluginManager

/-- **A load** succeeds when its configuration can be loaded, and else leaves the manager as it is. -/
theorem loadPlugin_cases (runtime : Runtime R C Y W) (config : PluginConfig Y) (baseDir : Option String) (world : W)
    (manager : PluginManager R C Y W) :
    (Loads runtime config baseDir world ∧ (manager.loadPlugin runtime config baseDir world).result = .ok ()) ∨
      (¬ Loads runtime config baseDir world ∧
        (∃ e, (manager.loadPlugin runtime config baseDir world).result = .error e) ∧
        (manager.loadPlugin runtime config baseDir world).manager = manager) := by
  rw [← startPlugin_iff, loadPlugin]
  rcases startPlugin runtime config baseDir world with ⟨e | plugin, world⟩
  · refine Or.inr ⟨?_, ⟨e, rfl⟩, rfl⟩
    rintro ⟨plugin, w, hstarted⟩
    cases hstarted
  · exact Or.inl ⟨⟨plugin, world, rfl⟩, rfl⟩

theorem unloadPlugin_of_none (h : manager.plugins.lookup name = none) :
    manager.unloadPlugin runtime name world = ⟨.error (.notFound name), manager, world⟩ := by
  rw [unloadPlugin, h]

/-- **An unload** of a plugin takes it out with its handlers. -/
theorem unloadPlugin_of_some (h : manager.plugins.lookup name = some loaded) :
    manager.unloadPlugin runtime name world =
      ⟨.ok (), ⟨manager.plugins.erase name, manager.hooks.unregisterPlugin name, manager.pluginDir⟩,
        loaded.plugin.afterShutdown runtime world⟩ := by
  rw [unloadPlugin, h]
  dsimp only
  rw [Plugin.shutdown_eq]

end PluginManager

/-- An unload that fails has found nothing to unload. -/
theorem atomic_unloadPlugin (runtime : Runtime R C Y W) (manager : PluginManager R C Y W) (name : String) (world : W) :
    AtomicCall manager (manager.unloadPlugin runtime name world) := by
  intro e herror
  cases hlookup : manager.plugins.lookup name with
  | none =>
    rw [PluginManager.unloadPlugin_of_none hlookup]
    exact Unchanged.refl manager
  | some loaded =>
    rw [PluginManager.unloadPlugin_of_some hlookup] at herror
    cases herror

/-- A reload leaves no trace of a failure exactly when there is no such plugin, or its configuration can be loaded
    once it is shut down. -/
theorem atomic_reloadPlugin_iff (runtime : Runtime R C Y W) (manager : PluginManager R C Y W) (name : String)
    (world : W) :
    AtomicCall manager (manager.reloadPlugin runtime name world) ↔
      ∀ loaded, manager.plugins.lookup name = some loaded →
        Loads runtime loaded.config manager.pluginDir (loaded.plugin.afterShutdown runtime world) := by
  rw [PluginManager.reloadPlugin]
  cases hlookup : manager.plugins.lookup name with
  | none =>
    exact iff_of_true (fun e _ => Unchanged.refl manager) fun loaded hnone =>
      absurd hnone (Option.some_ne_none loaded).symm
  | some loaded =>
    -- the plugin is out, and has to be loaded again
    simp only [PluginManager.unloadPlugin_of_some hlookup]
    rcases PluginManager.loadPlugin_cases runtime loaded.config manager.pluginDir
      (loaded.plugin.afterShutdown runtime world)
      ⟨manager.plugins.erase name, manager.hooks.unregisterPlugin name, manager.pluginDir⟩ with
      ⟨hloads, hok⟩ | ⟨hloads, ⟨e, herror⟩, hsame⟩
    · refine iff_of_true (fun e herror => ?_) ?_
      · rw [hok] at herror
        cases herror
      · rintro _ ⟨rfl⟩
        exact hloads
    · refine iff_of_false (fun h => ?_) fun h => hloads (h loaded rfl)
      refine not_unchanged_of_lookup hlookup ?_ (h e herror)
      rw [hsame]
      exact AList.lookup_erase _ _

/-- **Plugin management is atomic** for an unload, and for a reload exactly where nothing goes wrong once the plugin
    is taken out: it is not loaded, or its configuration can be loaded then. -/
theorem plugins_atomic_iff (runtime : Runtime R C Y W) (manager : PluginManager R C Y W) (name : String) (world : W) :
    AtomicCall manager (manager.unloadPlugin runtime name world) ∧
      (AtomicCall manager (manager.reloadPlugin runtime name world) ↔
        ∀ loaded, manager.plugins.lookup name = some loaded →
          Loads runtime loaded.config manager.pluginDir (loaded.plugin.afterShutdown runtime world)) :=
  ⟨atomic_unloadPlugin runtime manager name world, atomic_reloadPlugin_iff runtime manager name world⟩

/-- Crates with which everything goes well, in a world that says whether a file can be read. -/
def scripts : Runtime Unit Unit Unit Bool where
  readToString _ readable :=
    (if readable then .ok "plugin = \x7b\x7d" else .error "No such file or directory (os error 2)", readable)
  mlua := {
    new := fun readable => ((), readable)
    setMemoryLimit := fun _ _ => pure ()
    globals := fun _ => ()
    createTable := fun _ => pure ()
    createLogFunction := fun _ => pure ()
    exec := fun _ _ => pure ()
    getTable := fun _ _ => pure ()
    getFunction := fun _ _ => Effect.ofExcept (.error "error converting Lua nil to function")
    getString := fun _ _ => Effect.ofExcept (.error "error converting Lua nil to String")
    containsKey := fun _ _ => pure false
    setNil := fun _ _ => pure ()
    setString := fun _ _ _ => pure ()
    set := fun _ _ _ => pure ()
    toValue := fun _ _ => pure ()
    callBool := fun _ _ => pure true
    callUnit := fun _ => pure () }
  reqwest := ⟨fun _ => pure (), fun _ _ _ readable => (.timeout, readable), fun _ readable => readable⟩
  yaml := ⟨fun _ => none, fun _ => none, fun _ => none, fun _ => none⟩

/-- The configuration of a Lua plugin. -/
def costRouter : PluginConfig Unit :=
  { name := "cost_router", pluginType := .lua, path := some "plugins/cost_router.lua" }

/-- It was loaded while its script was there, and has registered a handler. -/
def oneScript : PluginManager Unit Unit Unit Bool :=
  let manager := (PluginManager.loadPlugin scripts costRouter none true ⟨∅, .new, none⟩).manager
  { manager with
    hooks := manager.hooks.register .beforeRoute ⟨"cost_router", 0, fun _ readable => (.ok .continue, readable)⟩ }

/-- **A plugin is lost**: its script is gone when it is reloaded, and so is the plugin. -/
theorem plugin_lost :
    (oneScript.plugins.lookup "cost_router").isSome = true ∧
      (oneScript.reloadPlugin scripts "cost_router" false).result =
        .error (.loadFailed "failed to read lua file: No such file or directory (os error 2)") ∧
      ¬ AtomicCall oneScript (oneScript.reloadPlugin scripts "cost_router" false) := by
  refine ⟨rfl, rfl, fun h => ?_⟩
  exact not_unchanged_of_lookup (AList.lookup_insert _) rfl (h _ rfl)

end Smppd.Plugins
