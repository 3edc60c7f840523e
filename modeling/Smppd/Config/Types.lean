/-
  The CONFIGURATION of the gateway (`src/config/types.rs`): listeners, clusters, routes, clients.

  The default of a field is what `serde` fills in when the key is missing.  Left out are the fields
  that no modelled function reads: the protocol and the filters of a listener, the admin API, the
  store settings (the in-memory limits are in `Smppd.Store.Memory`), the health check and pool
  settings of a cluster, the system type of a client, and the logging part of the telemetry.
-/
import Smppd.Store.Types

namespace Smppd

open Smppd.Store

/-! ## Clients -/

/-- Bind type for SMPP connections. -/
inductive BindType where
  | transmitter
  | receiver
  | transceiver
  deriving DecidableEq

/-- Client (ESME) configuration for authentication. -/
structure ClientConfig where
  systemId : String
  password : String
  allowedBindTypes : List BindType := []
  allowedSources : List String := []
  /-- Allowed IP addresses/ranges (CIDR notation). -/
  allowedIps : List String := []
  maxConnections : Option Nat := none
  rateLimit : Option UInt32 := none
  enabled : Bool := true

/-! ## Listeners -/

/-- TLS configuration: the paths of the PEM files. -/
structure TlsConfig where
  cert : String
  key : String

/-- Connection limits. -/
structure ConnectionLimits where
  maxConnections : Nat := 10000
  idleTimeout : Duration := fromSecs 60
  requestTimeout : Duration := fromSecs 30

/-- Listener configuration. -/
structure ListenerConfig where
  name : String
  address : String
  tls : Option TlsConfig := none
  limits : ConnectionLimits := {}

/-! ## Clusters -/

/-- Upstream endpoint configuration. -/
structure EndpointConfig where
  address : String
  systemId : String
  password : String
  systemType : String := ""
  weight : UInt32 := 1
  deriving DecidableEq

/-- Load balancer type. -/
inductive LbType where
  | roundRobin
  | leastConn
  | weighted
  | random
  /-- Power of two choices: two random endpoints, of which the one with fewer connections. -/
  | p2c
  /-- Consistent hashing: session affinity by destination or source. -/
  | consistentHash
  /-- Weighted least connections: weight and connection count together. -/
  | weightedLeastConn
  deriving DecidableEq

/-- Cluster configuration; of the mock settings only whether there are any. -/
structure ClusterConfig where
  name : String
  endpoints : List EndpointConfig
  loadBalancer : LbType := .roundRobin
  mock : Bool := false
  deriving DecidableEq

/-! ## Routes -/

/-- Flexible matching condition supporting multiple match types. -/
structure MatchCondition where
  pre : Option String := none
  regex : Option String := none
  exact : Option String := none
  any : Option Bool := none

/-- Time window for time-based routing. -/
structure TimeWindow where
  start : String
  stop : String
  days : List String := ["Mon", "Tue", "Wed", "Thu", "Fri", "Sat", "Sun"]
  timezone : String := "UTC"

/-- Route matching rules, with the legacy fields `prefix` (here `pre`) and `regex`. -/
structure RouteMatch where
  destination : Option MatchCondition := none
  source : Option MatchCondition := none
  senderId : Option MatchCondition := none
  systemId : Option String := none
  serviceType : Option String := none
  esmClass : Option UInt8 := none
  dataCoding : Option (List UInt8) := none
  timeWindow : Option TimeWindow := none
  pre : Option String := none
  regex : Option String := none

/-- Traffic split for A/B testing or gradual rollouts. -/
structure TrafficSplit where
  cluster : String
  weight : UInt32 := 1

/-- Route configuration. -/
structure RouteConfig where
  name : String
  match_ : RouteMatch
  cluster : Option String := none
  split : Option (List TrafficSplit) := none
  fallback : Option (List String) := none
  priority : Int := 0

/-! ## The whole -/

/-- Telemetry configuration: the worker settings. -/
structure TelemetryConfig where
  workers : Nat := 0
  workerStackSize : Nat := 2 * 1024 * 1024

/-- Root configuration. -/
structure Config where
  listeners : List ListenerConfig := []
  clusters : List ClusterConfig := []
  routes : List RouteConfig := []
  clients : List ClientConfig := []
  telemetry : TelemetryConfig := {}

end Smppd
