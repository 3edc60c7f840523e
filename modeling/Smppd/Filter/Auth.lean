/-
  CREDENTIALS (`src/filter/auth.rs`): who may bind, as what, and from where.

  Networks and addresses are those of the `ipnet` crate, which is not part of the repository: parsing
  a network and testing whether it contains an address are the fields of `IpNets`, about which nothing
  is assumed.

  An EMPTY list of networks lets every address in.  `From<&ClientConfig>` drops the entries that do
  not parse without a word, so a list of entries none of which parses becomes the empty one:
  `ip_allow_list_closed_iff` says that this is the only way in which a configured allow-list fails.
-/
import Smppd.Lib.Table
import Smppd.Config.Types

set_option linter.unusedVariables false

namespace Smppd.Filter

open Table

/-- What the `ipnet` crate knows about networks `Net` and addresses `Ip`. -/
structure IpNets (Ip Net : Type) where
  /-- `str::parse::<IpNet>`. -/
  parse : String → Option Net
  /-- `IpNet::contains`. -/
  contains : Net → Ip → Bool

variable {Ip Net : Type}

/-! ## Credentials -/

/-- Client credentials with full access control. -/
structure Credentials (Net : Type) where
  systemId : String
  password : String
  allowedBindTypes : List BindType := []
  allowedSources : Option (List String) := none
  allowedIps : List Net := []
  maxConnections : Option Nat := none
  rateLimit : Option UInt32 := none
  enabled : Bool := true

namespace Credentials

/-- `Credentials::new`. -/
def new (systemId password : String) : Credentials Net := { systemId, password }

/-- `is_bind_allowed`. -/
def isBindAllowed (creds : Credentials Net) (bindType : BindType) : Bool :=
  creds.allowedBindTypes.isEmpty || creds.allowedBindTypes.contains bindType

/-- `is_ip_allowed`. -/
def isIpAllowed (nets : IpNets Ip Net) (creds : Credentials Net) (ip : Ip) : Bool :=
  if creds.allowedIps.isEmpty then true
  else creds.allowedIps.any fun net => nets.contains net ip

/-- `From<&ClientConfig> for Credentials`. -/
def ofConfig (nets : IpNets Ip Net) (config : ClientConfig) : Credentials Net where
  systemId := config.systemId
  password := config.password
  allowedBindTypes := config.allowedBindTypes
  allowedSources := if config.allowedSources.isEmpty then none else some config.allowedSources
  allowedIps := config.allowedIps.filterMap nets.parse
  maxConnections := config.maxConnections
  rateLimit := config.rateLimit
  enabled := config.enabled

end Credentials

/-! ## Credential stores -/

/-- `CredentialStore`: validate credentials, or get them without the password. -/
structure CredentialStore (Net : Type) where
  validate : (systemId password : String) → Option (Credentials Net)
  get : (systemId : String) → Option (Credentials Net)

/-- `ConfigCredentialStore`: the enabled clients by their system id; of two clients with one system id
    the later one is kept. -/
def configCredentialStore (nets : IpNets Ip Net) (clients : List ClientConfig) :
    CredentialStore Net :=
  let credentials : Tbl String (Credentials Net) := (clients.filter fun c => c.enabled).foldl
    (fun t c => t.insert c.systemId (.ofConfig nets c)) ∅
  { validate := fun systemId password => (credentials.lookup systemId).bind fun c =>
      if c.password = password ∧ c.enabled then some c else none
    get := credentials.lookup }

/-- `OpenCredentialStore`: accepts all binds (for testing/development). -/
def openCredentialStore : CredentialStore Net where
  validate systemId _ := some (.new systemId "")
  get systemId := some (.new systemId "")

/-! ## Allow-lists -/

section AllowLists

variable (nets : IpNets Ip Net) (config : ClientConfig)

/-- Some entry of the list parses as a network that contains the address. -/
def Listed (ip : Ip) : Prop :=
  ∃ entry ∈ config.allowedIps, ∃ net, nets.parse entry = some net ∧ nets.contains net ip = true

/-- Some entry of the list parses. -/
def Parses : Prop := ∃ entry ∈ config.allowedIps, nets.parse entry ≠ none

variable {nets config}

/-- With an entry that parses, being allowed is being listed. -/
theorem isIpAllowed_of_parses (h : Parses nets config) (ip : Ip) :
    (Credentials.ofConfig nets config).isIpAllowed nets ip = true ↔ Listed nets config ip := by
  obtain ⟨entry, hentry, hne⟩ := h
  obtain ⟨net, hnet⟩ := Option.ne_none_iff_exists'.mp hne
  have hfull : (config.allowedIps.filterMap nets.parse).isEmpty = false := by
    rw [List.isEmpty_eq_false_iff_exists_mem]
    exact ⟨net, List.mem_filterMap.mpr ⟨entry, hentry, hnet⟩⟩
  show (if (config.allowedIps.filterMap nets.parse).isEmpty then true
    else (config.allowedIps.filterMap nets.parse).any fun net => nets.contains net ip) = true ↔ _
  rw [hfull, if_neg Bool.false_ne_true, List.any_eq_true]
  constructor
  · rintro ⟨net', hmem, hin⟩
    obtain ⟨entry', hentry', hparse⟩ := List.mem_filterMap.mp hmem
    exact ⟨entry', hentry', net', hparse, hin⟩
  · rintro ⟨entry', hentry', net', hparse, hin⟩
    exact ⟨net', List.mem_filterMap.mpr ⟨entry', hentry', hparse⟩, hin⟩

/-- Without one, everybody is allowed. -/
theorem isIpAllowed_of_not_parses (h : ¬ Parses nets config) (ip : Ip) :
    (Credentials.ofConfig nets config).isIpAllowed nets ip = true := by
  have hempty : config.allowedIps.filterMap nets.parse = [] := by
    rw [List.filterMap_eq_nil_iff]
    intro entry hentry
    by_contra hne
    exact h ⟨entry, hentry, hne⟩
  show (if (config.allowedIps.filterMap nets.parse).isEmpty then true else _) = true
  rw [hempty]
  rfl

end AllowLists

/-- The allow-list does not fail open at an address: it is allowed only when it is listed, and an
    entry that does not parse lets nobody in whom the others keep out. -/
structure FailsClosed (nets : IpNets Ip Net) (config : ClientConfig) (ip : Ip) : Prop where
  listed : (Credentials.ofConfig nets config).isIpAllowed nets ip = true → Listed nets config ip
  unwidened : ∀ before entry after, config.allowedIps = before ++ entry :: after →
    nets.parse entry = none → (Credentials.ofConfig nets config).isIpAllowed nets ip = true →
      (Credentials.ofConfig nets { config with allowedIps := before ++ after }).isIpAllowed nets ip
        = true

/-- **A configured allow-list fails closed exactly when one of its entries parses**; a list of which
    nothing parses keeps no address out. -/
theorem ip_allow_list_closed_iff (nets : IpNets Ip Net) (config : ClientConfig) (ip : Ip) :
    FailsClosed nets config ip ↔ Parses nets config := by
  constructor
  · intro hclosed
    by_contra hnone
    obtain ⟨entry, hentry, net, hnet, -⟩ := hclosed.listed (isIpAllowed_of_not_parses hnone ip)
    refine hnone ⟨entry, hentry, ?_⟩
    rw [hnet]
    exact Option.some_ne_none net
  · intro hparses
    refine ⟨(isIpAllowed_of_parses hparses ip).mp, ?_⟩
    intro before entry after hlist hentry hallowed
    have hsame : config.allowedIps.filterMap nets.parse =
        (before ++ after).filterMap nets.parse := by
      rw [hlist, List.filterMap_append, List.filterMap_append, List.filterMap_cons_none hentry]
    unfold Credentials.ofConfig at hallowed ⊢
    rw [hsame] at hallowed
    exact hallowed

/-- The one network `10.0.0.0/8` of addresses given by their first byte; a bare address is no
    network. -/
def tenNet : IpNets UInt8 UInt8 :=
  ⟨fun entry => if entry = "10.0.0.0/8" then some 10 else none, fun net ip => net = ip⟩

/-- A list that names its network, and a bare address as well. -/
theorem ip_allow_list_closed_ten :
    FailsClosed tenNet
      { systemId := "client1", password := "s", allowedIps := ["10.0.0.7", "10.0.0.0/8"] } 192 :=
  (ip_allow_list_closed_iff tenNet _ 192).mpr ⟨"10.0.0.0/8", by decide, by decide⟩

/-- A list of one bare address lets every address in. -/
theorem ip_allow_list_open_to_all :
    ¬ FailsClosed tenNet { systemId := "client1", password := "s", allowedIps := ["10.0.0.7"] } 192 := by
  intro hclosed
  obtain ⟨entry, hentry, net, hnet, -⟩ := hclosed.listed rfl
  rw [List.mem_singleton.mp hentry] at hnet
  cases hnet

end Smppd.Filter
