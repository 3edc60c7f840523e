/-
  LOADERS (`src/plugins/loader`): what a Lua script or a webhook is loaded into, and what its `initialize` and its
  `shutdown` do.

  A Lua plugin is an interpreter in which the script was run.  Its `shutdown` calls the script's function of that
  name and forgets what comes of it; a webhook has nothing to shut down.  So a `shutdown` NEVER FAILS
  (`shutdown_eq`), and what can fail are the steps of a load.

  The crates are parameters, and nothing is assumed about them.  `W` is the world: the file system, the endpoints,
  and the memory of every interpreter, into which `R` refers (a state, a table, a function or any other value of
  Lua).  `C` is an HTTP client and `Y` a YAML value.  A crate's error is the text that it displays.  What is
  written to the trace is left out, and so are the calls of a loaded plugin that no load makes (`filter`,
  `select_route`, `on_hook`).
-/
import Smppd.Lib.Fallible
import Smppd.Plugins.Hooks

set_option linter.unusedVariables false

namespace Smppd.Plugins

open Smppd.Store Table Fallible

/-! ## Configurations -/

/-- Plugin type enumeration. -/
inductive PluginType where
  | lua
  | wasm
  | native
  | webhook
  deriving DecidableEq, Repr

/-- Plugin resource limits. -/
structure PluginLimits where
  memoryMb : UInt64 := 64
  timeoutMs : UInt64 := 1000
  fuel : Option UInt64 := none

/-- Configuration for a single plugin instance. -/
structure PluginConfig (Y : Type) where
  name : String
  pluginType : PluginType
  /-- Path to plugin file (for lua, wasm, native). -/
  path : Option String := none
  /-- URL for webhook plugins. -/
  url : Option String := none
  enabled : Bool := true
  priority : Int := 0
  limits : PluginLimits := {}
  config : Tbl String Y := ∅

/-- Context provided to plugins during initialization. -/
structure PluginContext (Y : Type) where
  pluginName : String
  config : Tbl String Y := ∅
  pluginDir : Option String := none
  debug : Bool := false

/-- Plugin capabilities. -/
structure PluginCapabilities where
  canFilter : Bool
  canRoute : Bool
  canTransform : Bool
  canHook : Bool
  canStore : Bool

/-! ## The crates -/

/-- `serde_yaml::Value`. -/
structure Yaml (Y : Type) where
  asBool : Y → Option Bool
  asU64 : Y → Option UInt64
  asStr : Y → Option String
  asSequence : Y → Option (List Y)

/-- `mlua`.  Any access to a table may run a metamethod, so that it can fail and change the world. -/
structure Mlua (R Y W : Type) where
  /-- `Lua::new`. -/
  new : W → R × W
  setMemoryLimit : R → UInt64 → Effect W String Unit
  globals : R → R
  createTable : R → Effect W String R
  /-- `create_function`, for the function behind `smppd.log`. -/
  createLogFunction : R → Effect W String R
  /-- `load(script).exec()`. -/
  exec : R → String → Effect W String Unit
  /-- `get::<Table>`. -/
  getTable : R → String → Effect W String R
  /-- `get::<Function>`. -/
  getFunction : R → String → Effect W String R
  /-- `get::<String>`. -/
  getString : R → String → Effect W String String
  containsKey : R → String → Effect W String Bool
  /-- `set(key, Value::Nil)`. -/
  setNil : R → String → Effect W String Unit
  setString : R → String → String → Effect W String Unit
  /-- `set` of a table or a function. -/
  set : R → String → R → Effect W String Unit
  /-- `to_value` of a configuration. -/
  toValue : R → Tbl String Y → Effect W String R
  /-- `call::<bool>(argument)`. -/
  callBool : R → R → Effect W String Bool
  /-- `call::<()>(())`. -/
  callUnit : R → Effect W String Unit

/-- The body of a ping. -/
structure WebhookPing where
  event : String
  pluginName : String

/-- The answer to a ping. -/
structure WebhookPingResponse where
  ok : Bool

/-- What comes of a request. -/
inductive Sent where
  /-- A response with a status and its text, and with its body read as JSON. -/
  | response (status : Nat) (display : String) (json : Except String WebhookPingResponse)
  | timeout
  | connect (e : String)
  | other (e : String)

/-- `reqwest`, and the timer of the runtime. -/
structure Reqwest (C W : Type) where
  /-- `Client::builder().timeout(timeout).build()`. -/
  build : Duration → Effect W String C
  /-- `post(url).json(payload).send()`. -/
  post : C → String → WebhookPing → W → Sent × W
  sleep : Duration → W → W

/-- Everything that a load asks of the crates and the system. -/
structure Runtime (R C Y W : Type) where
  /-- `tokio::fs::read_to_string`. -/
  readToString : String → Effect W String String
  mlua : Mlua R Y W
  reqwest : Reqwest C W
  yaml : Yaml Y

variable {R C Y W : Type}

/-! ## Lua (`loader/lua.rs`) -/

/-- Lua plugin implementation. -/
structure LuaPlugin (R Y : Type) where
  name : String
  version : String
  capabilities : PluginCapabilities
  lua : R
  config : PluginConfig Y

section Lua

variable (mlua : Mlua R Y W)

/-- `let _ = table.set(key, Value::Nil)`, for some keys. -/
def removeKeys (table : R) : List String → W → W
  | [], world => world
  | key :: keys, world => removeKeys table keys ((mlua.setNil table key).discard world)

/-- The same of a table among the globals, if there is one. -/
def removeFrom (globals : R) (name : String) (keys : List String) (world : W) : W :=
  match mlua.getTable globals name world with
  | (.ok table, world) => removeKeys mlua table keys world
  | (.error _, world) => world

/-- "Remove dangerous functions". -/
def removeDangerous (globals : R) (world : W) : W :=
  let world := removeFrom mlua globals "os"
    ["execute", "exit", "remove", "rename", "setlocale", "getenv", "tmpname"] world
  let world := removeKeys mlua globals ["io", "loadfile", "dofile", "debug"] world
  removeFrom mlua globals "package" ["loadlib"] world

/-- Add the smppd API table to Lua environment. -/
def addSmppdApi (lua : R) : Effect W PluginError Unit := do
  let globals := mlua.globals lua
  let smppd ← (mlua.createTable lua).mapError fun e => .loadFailed ("failed to create smppd table: " ++ e)
  let logFn ← (mlua.createLogFunction lua).mapError fun e => .loadFailed ("failed to create log function: " ++ e)
  (mlua.set smppd "log" logFn).mapError fun e => .loadFailed ("failed to set log function: " ++ e)
  (mlua.setString smppd "version" "0.1.0").mapError fun e => .loadFailed ("failed to set version: " ++ e)
  (mlua.set globals "smppd" smppd).mapError fun e => .loadFailed ("failed to set smppd global: " ++ e)

/-- Create a sandboxed Lua environment. -/
def createSandbox (config : PluginConfig Y) : Effect W PluginError R := do
  let lua ← Effect.lift mlua.new
  let memoryLimit := config.limits.memoryMb * 1024 * 1024
  (mlua.setMemoryLimit lua memoryLimit).mapError fun e => .loadFailed ("failed to set memory limit: " ++ e)
  Effect.modify (removeDangerous mlua (mlua.globals lua))
  addSmppdApi mlua lua
  pure lua

/-- What `load` makes of an interpreter and its `plugin` table: metadata, and capabilities by the functions there. -/
def describe (config : PluginConfig Y) (lua pluginTable : R) (world : W) : LuaPlugin R Y × W :=
  let (name, world) := (mlua.getString pluginTable "name").unwrapOr config.name world
  let (version, world) := (mlua.getString pluginTable "version").unwrapOr "1.0.0" world
  let (canFilter, world) := (mlua.containsKey pluginTable "filter").unwrapOr false world
  let (canRoute, world) := (mlua.containsKey pluginTable "select_route").unwrapOr false world
  let (canTransform, world) := (mlua.containsKey pluginTable "transform").unwrapOr false world
  let (canHook, world) := (mlua.containsKey pluginTable "on_hook").unwrapOr false world
  (⟨name, version, ⟨canFilter, canRoute, canTransform, canHook, false⟩, lua, config⟩, world)

namespace LuaPlugin

/-- The function gets the configuration. -/
def callInitialize (ctx : PluginContext Y) (self : LuaPlugin R Y) (initFn : R) : Effect W PluginError Unit := do
  let configTable ← (mlua.toValue self.lua ctx.config).mapError fun e =>
    .initFailed ("failed to convert config: " ++ e)
  let _ ← (mlua.callBool initFn configTable).mapError fun e => .initFailed ("initialize failed: " ++ e)
  pure ()

/-- `if let Ok(init_fn) = plugin_table.get("initialize")`, and what is done then. -/
def initializeWith (ctx : PluginContext Y) (self : LuaPlugin R Y) (pluginTable : R) : Effect W PluginError Unit :=
  fun world =>
    match mlua.getFunction pluginTable "initialize" world with
    | (.ok initFn, world) => self.callInitialize mlua ctx initFn world
    | (.error _, world) => (.ok (), world)

/-- `Plugin::initialize`. -/
def initializePlugin (ctx : PluginContext Y) (self : LuaPlugin R Y) : Effect W PluginError Unit := do
  let pluginTable ← (mlua.getTable (mlua.globals self.lua) "plugin").mapError fun _ =>
    .initFailed "plugin table not found"
  self.initializeWith mlua ctx pluginTable

/-- `Plugin::shutdown`, but for the `Ok(())` at its end. -/
def shutDown (self : LuaPlugin R Y) (world : W) : W :=
  match mlua.getTable (mlua.globals self.lua) "plugin" world with
  | (.ok pluginTable, world) =>
    match mlua.getFunction pluginTable "shutdown" world with
    | (.ok shutdownFn, world) => (mlua.callUnit shutdownFn).discard world
    | (.error _, world) => world
  | (.error _, world) => world

end LuaPlugin

end Lua

/-- `LuaPluginLoader::load`. -/
def loadLua (runtime : Runtime R C Y W) (path : String) (config : PluginConfig Y) :
    Effect W PluginError (LuaPlugin R Y) := do
  let script ← (runtime.readToString path).mapError fun e => .loadFailed ("failed to read lua file: " ++ e)
  let lua ← createSandbox runtime.mlua config
  (runtime.mlua.exec lua script).mapError fun e => .loadFailed ("lua syntax error: " ++ e)
  let pluginTable ← (runtime.mlua.getTable (runtime.mlua.globals lua) "plugin").mapError fun _ =>
    .loadFailed "plugin table not found"
  Effect.lift (describe runtime.mlua config lua pluginTable)

/-! ## Webhooks (`loader/webhook.rs`) -/

/-- Webhook plugin implementation. -/
structure WebhookPlugin (C Y : Type) where
  name : String
  url : String
  client : C
  config : PluginConfig Y
  timeout : Duration
  retryCount : UInt32
  events : List String

namespace WebhookPlugin

/-- Create a new webhook plugin. -/
def new (runtime : Runtime R C Y W) (name url : String) (config : PluginConfig Y) :
    Effect W PluginError (WebhookPlugin C Y) := do
  let timeout := fromMillis config.limits.timeoutMs.toNat
  let client ← (runtime.reqwest.build timeout).mapError fun e =>
    .loadFailed ("failed to create HTTP client: " ++ e)
  let events := (((config.config.lookup "events").bind runtime.yaml.asSequence).map fun seq =>
    seq.filterMap runtime.yaml.asStr).getD []
  let retryCount := (((config.config.lookup "retry_count").bind runtime.yaml.asU64).getD 3).toUInt32
  pure { name, url, client, config, timeout, retryCount, events }

/-- The loop of `send_request`, with so many attempts left; the backoff wraps as a `u64`. -/
def attempts (reqwest : Reqwest C W) (self : WebhookPlugin C Y) (url : String) (payload : WebhookPing) :
    (left attempt : Nat) → Option PluginError → Effect W PluginError WebhookPingResponse
  | 0, _, lastError, world => (.error (lastError.getD (.webhookError "unknown error")), world)
  | left + 1, attempt, lastError, world =>
    let world :=
      if 0 < attempt then reqwest.sleep (fromMillis (100 * 2 ^ (attempt - 1) % 2 ^ 64)) world else world
    match reqwest.post self.client url payload world with
    | (.response status display json, world) =>
      if 200 ≤ status ∧ status < 300 then
        (json.mapError fun e => .webhookError ("failed to parse response: " ++ e), world)
      else if status = 429 then
        attempts reqwest self url payload left (attempt + 1) (some (.webhookError "rate limited")) world
      else if 500 ≤ status ∧ status < 600 then
        attempts reqwest self url payload left (attempt + 1) (some (.webhookError ("server error: " ++ display))) world
      else (.error (.webhookError ("webhook returned status " ++ display)), world)
    | (.timeout, world) => attempts reqwest self url payload left (attempt + 1) (some (.timeout self.timeout)) world
    | (.connect e, world) =>
      attempts reqwest self url payload left (attempt + 1) (some (.webhookError ("connection failed: " ++ e))) world
    | (.other e, world) =>
      attempts reqwest self url payload left (attempt + 1) (some (.webhookError ("request failed: " ++ e))) world

/-- Send webhook request with retry. -/
def sendRequest (reqwest : Reqwest C W) (self : WebhookPlugin C Y) (endpoint : String) (payload : WebhookPing) :
    Effect W PluginError WebhookPingResponse :=
  let base := String.ofList (self.url.toList.reverse.dropWhile (· = '/')).reverse
  attempts reqwest self (base ++ "/" ++ endpoint) payload (self.retryCount.toNat + 1) 0 none

/-- `Plugin::initialize`: a ping, if it is wanted, of which nothing but a line in the log is made. -/
def initializePlugin (runtime : Runtime R C Y W) (ctx : PluginContext Y) (self : WebhookPlugin C Y) :
    Effect W PluginError Unit :=
  if ((ctx.config.lookup "verify_on_init").bind runtime.yaml.asBool).getD false then
    Effect.modify (self.sendRequest runtime.reqwest "ping" ⟨"ping", self.name⟩).discard
  else pure ()

end WebhookPlugin

/-! ## Plugins -/

/-- `Box<dyn Plugin>`: the plugins that there are. -/
inductive Plugin (R C Y : Type) where
  | lua (self : LuaPlugin R Y)
  | webhook (self : WebhookPlugin C Y)

/-- `Plugin::initialize`. -/
def Plugin.initializePlugin (runtime : Runtime R C Y W) (ctx : PluginContext Y) :
    Plugin R C Y → Effect W PluginError Unit
  | .lua self => self.initializePlugin runtime.mlua ctx
  | .webhook self => self.initializePlugin runtime ctx

/-- The world after a shutdown. -/
def Plugin.afterShutdown (runtime : Runtime R C Y W) : Plugin R C Y → W → W
  | .lua self, world => self.shutDown runtime.mlua world
  | .webhook _, world => world

/-- `Plugin::shutdown`. -/
def Plugin.shutdown (runtime : Runtime R C Y W) : Plugin R C Y → Effect W PluginError Unit
  | .lua self => do
    Effect.modify (self.shutDown runtime.mlua)
    pure ()
  | .webhook _ => pure ()

/-- **A shutdown never fails.** -/
theorem Plugin.shutdown_eq (runtime : Runtime R C Y W) (self : Plugin R C Y) (world : W) :
    self.shutdown runtime world = (.ok (), self.afterShutdown runtime world) := by
  cases self <;> rfl

/-- An `initialize` of a webhook never fails, whatever the ping comes to. -/
theorem WebhookPlugin.exists_initializePlugin_eq_ok (runtime : Runtime R C Y W) (ctx : PluginContext Y)
    (self : WebhookPlugin C Y) (world : W) : ∃ world', self.initializePlugin runtime ctx world = (.ok (), world') := by
  rw [initializePlugin]
  split
  · exact ⟨_, rfl⟩
  · exact ⟨_, rfl⟩

/-! ## What has to go well -/

/-- **A script can be initialized**: there is a `plugin` table, and if it has an `initialize` function, the function
    gets the configuration and returns. -/
def Initializes (mlua : Mlua R Y W) (lua : R) (config : Tbl String Y) (world : W) : Prop :=
  ∃ pluginTable w₁, mlua.getTable (mlua.globals lua) "plugin" world = (.ok pluginTable, w₁) ∧
    ∀ initFn w₂, mlua.getFunction pluginTable "initialize" w₁ = (.ok initFn, w₂) →
      ∃ configTable w₃, mlua.toValue lua config w₂ = (.ok configTable, w₃) ∧
        ∃ answer w₄, mlua.callBool initFn configTable w₃ = (.ok answer, w₄)

theorem LuaPlugin.exists_initializePlugin_eq_ok_iff {mlua : Mlua R Y W} {ctx : PluginContext Y} {self : LuaPlugin R Y}
    {world : W} :
    (∃ world', self.initializePlugin mlua ctx world = (.ok (), world')) ↔ Initializes mlua self.lua ctx.config world := by
  constructor
  · rintro ⟨world', h⟩
    obtain ⟨pluginTable, w₁, htable, hrest⟩ := Effect.bind_eq_ok.mp h
    refine ⟨pluginTable, w₁, Effect.mapError_eq_ok.mp htable, fun initFn w₂ hfn => ?_⟩
    rw [initializeWith, hfn] at hrest
    obtain ⟨configTable, w₃, hvalue, hcall⟩ := Effect.bind_eq_ok.mp hrest
    obtain ⟨answer, w₄, hanswer, -⟩ := Effect.bind_eq_ok.mp hcall
    exact ⟨configTable, w₃, Effect.mapError_eq_ok.mp hvalue, answer, w₄, Effect.mapError_eq_ok.mp hanswer⟩
  · rintro ⟨pluginTable, w₁, htable, hrest⟩
    have hinitializes (world' : W) (h : self.initializeWith mlua ctx pluginTable w₁ = (.ok (), world')) :
        ∃ world', self.initializePlugin mlua ctx world = (.ok (), world') :=
      ⟨world', Effect.bind_eq_ok.mpr ⟨pluginTable, w₁, Effect.mapError_eq_ok.mpr htable, h⟩⟩
    rcases hfn : mlua.getFunction pluginTable "initialize" w₁ with ⟨e | initFn, w₂⟩
    · refine hinitializes w₂ ?_
      rw [initializeWith, hfn]
    · obtain ⟨configTable, w₃, hvalue, answer, w₄, hanswer⟩ := hrest initFn w₂ hfn
      refine hinitializes w₄ ?_
      rw [initializeWith, hfn]
      exact Effect.bind_eq_ok.mpr ⟨configTable, w₃, Effect.mapError_eq_ok.mpr hvalue,
        Effect.bind_eq_ok.mpr ⟨answer, w₄, Effect.mapError_eq_ok.mpr hanswer, rfl⟩⟩

/-- **A script can be loaded**: it can be read, Lua can be set up for it (which can fail at the memory limit and at
    the API table), it runs, and it leaves a `plugin` table that can be initialized. -/
def LoadsLua (runtime : Runtime R C Y W) (path : String) (config : PluginConfig Y) (world : W) : Prop :=
  ∃ script w₁, runtime.readToString path world = (.ok script, w₁) ∧
    ∃ lua w₂, createSandbox runtime.mlua config w₁ = (.ok lua, w₂) ∧
      ∃ w₃, runtime.mlua.exec lua script w₂ = (.ok (), w₃) ∧
        ∃ pluginTable w₄, runtime.mlua.getTable (runtime.mlua.globals lua) "plugin" w₃ = (.ok pluginTable, w₄) ∧
          Initializes runtime.mlua lua config.config (describe runtime.mlua config lua pluginTable w₄).2

/-- **A webhook can be loaded**: the HTTP client can be built. -/
def LoadsWebhook (runtime : Runtime R C Y W) (config : PluginConfig Y) (world : W) : Prop :=
  ∃ client w₁, runtime.reqwest.build (fromMillis config.limits.timeoutMs.toNat) world = (.ok client, w₁)

theorem loadLua_eq_ok {runtime : Runtime R C Y W} {path : String} {config : PluginConfig Y} {world world' : W}
    {plugin : LuaPlugin R Y} :
    loadLua runtime path config world = (.ok plugin, world') ↔
      ∃ script w₁, runtime.readToString path world = (.ok script, w₁) ∧
        ∃ lua w₂, createSandbox runtime.mlua config w₁ = (.ok lua, w₂) ∧
          ∃ w₃, runtime.mlua.exec lua script w₂ = (.ok (), w₃) ∧
            ∃ pluginTable w₄, runtime.mlua.getTable (runtime.mlua.globals lua) "plugin" w₃ = (.ok pluginTable, w₄) ∧
              describe runtime.mlua config lua pluginTable w₄ = (plugin, world') := by
  unfold loadLua
  simp only [Effect.bind_eq_ok, Effect.mapError_eq_ok, Effect.lift_eq_ok, Unique.exists_iff]

theorem WebhookPlugin.exists_new_eq_ok_iff (name url : String) {runtime : Runtime R C Y W} {config : PluginConfig Y}
    {world : W} :
    (∃ plugin w₁, WebhookPlugin.new runtime name url config world = (.ok plugin, w₁)) ↔
      LoadsWebhook runtime config world := by
  constructor
  · rintro ⟨plugin, w₁, h⟩
    obtain ⟨client, w₂, hbuilt, -⟩ := Effect.bind_eq_ok.mp h
    exact ⟨client, w₂, Effect.mapError_eq_ok.mp hbuilt⟩
  · rintro ⟨client, w₁, hbuilt⟩
    exact ⟨_, w₁, Effect.bind_eq_ok.mpr ⟨client, w₁, Effect.mapError_eq_ok.mpr hbuilt, rfl⟩⟩

end Smppd.Plugins
