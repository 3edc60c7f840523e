/-
  CLUSTERS (`src/cluster/mod.rs`, `src/cluster/endpoint.rs`): the upstream endpoints by the name of
  their group, as they are built from the configuration.

  Of an endpoint only what it is built from is kept; its connection pool, its health and its load,
  and the load balancer of the cluster, change as the gateway runs and have modules of their own.
-/
import Smppd.Lib.Table
import Smppd.Config.Types

set_option linter.dupNamespace false

namespace Smppd.Cluster

open Table

/-- An upstream SMSC endpoint. -/
structure Endpoint where
  cluster : String
  index : Nat
  address : String
  systemId : String
  password : String
  systemType : String
  weight : UInt32
  deriving DecidableEq

/-- `Endpoint::new`. -/
def Endpoint.new (cluster : String) (index : Nat) (config : EndpointConfig) : Endpoint :=
  ⟨cluster, index, config.address, config.systemId, config.password, config.systemType, config.weight⟩

/-- A cluster of upstream SMSC endpoints. -/
structure Cluster where
  name : String
  endpoints : List Endpoint
  isMock : Bool
  deriving DecidableEq

/-- The endpoints of a cluster, in the order of the configuration. -/
def buildEndpoints (cluster : String) (configs : List EndpointConfig) : List Endpoint :=
  configs.mapIdx (Endpoint.new cluster)

/-- `Cluster::new`. -/
def Cluster.new (config : ClusterConfig) : Cluster where
  name := config.name
  endpoints := buildEndpoints config.name config.endpoints
  isMock := config.mock

/-- Manager for all clusters. -/
abbrev Clusters := Tbl String Cluster

/-- `Clusters::new`: of two clusters with one name the later one is kept. -/
def Clusters.new (configs : List ClusterConfig) : Clusters :=
  configs.foldl (fun clusters config => clusters.insert config.name (.new config)) ∅

/-- `Clusters::get`. -/
def Clusters.get (self : Clusters) (name : String) : Option Cluster := self.lookup name

/-! ## What is found -/

/-- A cluster that is found was built from a configuration of its name. -/
theorem Clusters.get_new_eq_some {configs : List ClusterConfig} {name : String} {cluster : Cluster}
    (h : (Clusters.new configs).get name = some cluster) :
    ∃ config ∈ configs, config.name = name ∧ cluster = .new config := by
  rcases lookup_foldl_insert h with hempty | hconfig
  · cases hempty
  · exact hconfig

/-- Where names are unique, every configured cluster is found under its name. -/
theorem Clusters.get_new_of_mem {configs : List ClusterConfig}
    (hunique : (configs.map fun config => config.name).Nodup) {config : ClusterConfig}
    (hmem : config ∈ configs) : (Clusters.new configs).get config.name = some (.new config) :=
  lookup_foldl_insert_of_mem hunique hmem

end Smppd.Cluster
