/-
  LOADING a configuration (`src/config/loader.rs`): detect the format, read the file, parse it,
  validate it.

  The parsers (`serde_yaml`, `serde_json`, `toml`) and the file system are not part of the repository:
  `Files` gives the contents of a path and `Parsers` what each parser makes of them.

  `Config.validate` is the source's sequence of checks with its messages; `Config.Sound` is what a
  configuration that passes them has, and `Config.sound_of_validate` says so.
-/
import Mathlib.Data.List.Nodup
import Smppd.Lib.Fallible
import Smppd.Config.Types

set_option linter.unusedVariables false

namespace Smppd

open Fallible

/-! ## Validation -/

/-- The checks that names are unique: each is inserted into the set of those seen. -/
def checkUnique (what : String) : List String → List String → Except String Unit
  | _, [] => pure ()
  | seen, name :: names =>
    if name ∈ seen then throw s!"duplicate {what} name: {name}"
    else checkUnique what (name :: seen) names

/-- A check for each element of a list; the first that fails ends it. -/
def checkEach {α : Type} (check : α → Except String Unit) : List α → Except String Unit
  | [] => pure ()
  | a :: l => do
    check a
    checkEach check l

/-- A check that fails with a message. -/
def ensure (ok : Bool) (message : String) : Except String Unit :=
  if ok then pure () else throw message

/-- The checks on one route. -/
def RouteConfig.check (clusterNames : List String) (route : RouteConfig) : Except String Unit := do
  checkEach (fun cluster => ensure (clusterNames.contains cluster)
    s!"route '{route.name}' references unknown cluster: {cluster}") route.cluster.toList
  checkEach (fun cluster => ensure (clusterNames.contains cluster)
    s!"route '{route.name}' references unknown cluster in split: {cluster}")
    ((route.split.getD []).map fun split => split.cluster)
  checkEach (fun fallback => ensure (clusterNames.contains fallback)
    s!"route '{route.name}' references unknown fallback cluster: {fallback}") (route.fallback.getD [])
  ensure (route.cluster.isSome || route.split.isSome)
    s!"route '{route.name}' must have either 'cluster' or 'split' target"
  ensure (!(route.cluster.isSome && route.split.isSome))
    s!"route '{route.name}' cannot have both 'cluster' and 'split' targets"

/-- The check on one cluster. -/
def ClusterConfig.check (cluster : ClusterConfig) : Except String Unit :=
  ensure (!cluster.endpoints.isEmpty || cluster.mock)
    s!"cluster '{cluster.name}' must have at least one endpoint or mock configuration"

/-- `Config::validate`. -/
def Config.validate (self : Config) : Except String Unit := do
  ensure (!self.listeners.isEmpty) "at least one listener must be defined"
  checkUnique "listener" [] (self.listeners.map fun l => l.name)
  checkUnique "cluster" [] (self.clusters.map fun c => c.name)
  checkEach (RouteConfig.check (self.clusters.map fun c => c.name)) self.routes
  checkEach ClusterConfig.check self.clusters

/-! ## Loading -/

/-- Supported configuration formats. -/
inductive Format where
  | yaml
  | json
  | toml
  deriving DecidableEq

/-- A path: how it is displayed, and its extension where that is text. -/
structure ConfigPath where
  display : String
  extension : Option String

/-- `Format::from_path`. -/
def Format.fromPath (path : ConfigPath) : Option Format :=
  path.extension.bind fun ext =>
    match String.ofList (ext.toList.map Char.toLower) with
    | "yaml" => some .yaml
    | "yml" => some .yaml
    | "json" => some .json
    | "toml" => some .toml
    | _ => none

/-- The file system and the parsers. -/
structure Files where
  /-- `fs::read_to_string`. -/
  read : ConfigPath → Option String
  /-- `serde_yaml::from_str`, `serde_json::from_str` and `toml::from_str`. -/
  parse : Format → String → Option Config

/-- `with_context`: the message in place of the error. -/
def withContext {α : Type} (x : Option α) (message : String) : Except String α :=
  match x with
  | some a => pure a
  | none => throw message

/-- `Config::from_yaml`, `Config::from_json` and `Config::from_toml`. -/
def Config.fromText (files : Files) (format : Format) (name text : String) : Except String Config := do
  let config ← withContext (files.parse format text) s!"failed to parse {name} configuration"
  config.validate
  pure config

/-- `Config::from_yaml`. -/
def Config.fromYaml (files : Files) := Config.fromText files .yaml "YAML"

/-- `Config::from_json`. -/
def Config.fromJson (files : Files) := Config.fromText files .json "JSON"

/-- `Config::from_toml`. -/
def Config.fromToml (files : Files) := Config.fromText files .toml "TOML"

/-- `Config::load`. -/
def Config.load (files : Files) (path : ConfigPath) : Except String Config := do
  let format ← withContext (Format.fromPath path) s!"unsupported config format: {path.display}"
  let contents ← withContext (files.read path) s!"failed to read config file: {path.display}"
  match format with
  | .yaml => Config.fromYaml files contents
  | .json => Config.fromJson files contents
  | .toml => Config.fromToml files contents

/-! ## What passes -/

theorem ensure_eq_ok {ok : Bool} {message : String} :
    ensure ok message = .ok () ↔ ok = true := by
  unfold ensure
  cases ok with
  | true => exact iff_of_true rfl rfl
  | false =>
    refine iff_of_false (fun h => ?_) Bool.false_ne_true
    cases h

theorem checkEach_eq_ok {α : Type} {check : α → Except String Unit} {l : List α} :
    checkEach check l = .ok () ↔ ∀ a ∈ l, check a = .ok () := by
  induction l with
  | nil => exact iff_of_true rfl fun _ h => absurd h List.not_mem_nil
  | cons a l ih =>
    rw [checkEach, bind_eq_ok, List.forall_mem_cons, ← ih]
    constructor
    · rintro ⟨u, ha, hl⟩
      exact ⟨ha, hl⟩
    · rintro ⟨ha, hl⟩
      exact ⟨(), ha, hl⟩

theorem checkUnique_eq_ok {what : String} {seen names : List String} :
    checkUnique what seen names = .ok () ↔ names.Nodup ∧ ∀ name ∈ names, name ∉ seen := by
  induction names generalizing seen with
  | nil => exact iff_of_true rfl ⟨List.nodup_nil, fun _ h => absurd h List.not_mem_nil⟩
  | cons name names ih =>
    unfold checkUnique
    rw [List.nodup_cons, List.forall_mem_cons]
    by_cases hseen : name ∈ seen
    · rw [if_pos hseen]
      refine iff_of_false (fun h => ?_) fun h => h.2.1 hseen
      cases h
    · rw [if_neg hseen, ih]
      constructor
      · rintro ⟨hnodup, hfresh⟩
        refine ⟨⟨fun hmem => hfresh name hmem List.mem_cons_self, hnodup⟩, hseen, fun n hn => ?_⟩
        exact fun h => hfresh n hn (List.mem_cons_of_mem _ h)
      · rintro ⟨⟨hmem, hnodup⟩, -, hfresh⟩
        refine ⟨hnodup, fun n hn hin => ?_⟩
        rcases List.mem_cons.mp hin with rfl | hold
        · exact hmem hn
        · exact hfresh n hn hold

/-- The names of the clusters of a configuration. -/
def Config.clusterNames (config : Config) : List String := config.clusters.map fun c => c.name

/-- What a configuration that passes the checks has. -/
structure Config.Sound (config : Config) : Prop where
  clusters : config.clusterNames.Nodup
  cluster : ∀ route ∈ config.routes, ∀ c, route.cluster = some c → c ∈ config.clusterNames
  split : ∀ route ∈ config.routes, ∀ splits, route.split = some splits →
    ∀ s ∈ splits, s.cluster ∈ config.clusterNames
  fallback : ∀ route ∈ config.routes, ∀ name ∈ route.fallback.getD [], name ∈ config.clusterNames
  target : ∀ route ∈ config.routes, route.split ≠ none ∨ route.cluster ≠ none
  endpoints : ∀ cluster ∈ config.clusters, cluster.endpoints ≠ [] ∨ cluster.mock = true

/-- A check that names are known. -/
theorem known_of_checkEach {known names : List String} {message : String → String}
    (h : checkEach (fun name => ensure (known.contains name) (message name)) names = .ok ()) :
    ∀ name ∈ names, name ∈ known := by
  intro name hname
  exact List.contains_iff_mem.mp (ensure_eq_ok.mp (checkEach_eq_ok.mp h name hname))

/-- What the checks on a route say of it. -/
theorem RouteConfig.of_check {clusterNames : List String} {route : RouteConfig}
    (h : route.check clusterNames = .ok ()) :
    (∀ c ∈ route.cluster.toList, c ∈ clusterNames) ∧
      (∀ c ∈ (route.split.getD []).map (fun s => s.cluster), c ∈ clusterNames) ∧
      (∀ c ∈ route.fallback.getD [], c ∈ clusterNames) ∧
      (route.cluster.isSome || route.split.isSome) = true := by
  unfold RouteConfig.check at h
  simp only [bind_eq_ok] at h
  obtain ⟨_, hcluster, _, hsplit, _, hfallback, _, htarget, -⟩ := h
  exact ⟨known_of_checkEach hcluster, known_of_checkEach hsplit, known_of_checkEach hfallback,
    ensure_eq_ok.mp htarget⟩

/-- **A configuration that is validated is sound.** -/
theorem Config.sound_of_validate {config : Config} (h : config.validate = .ok ()) : config.Sound := by
  unfold Config.validate at h
  simp only [bind_eq_ok] at h
  obtain ⟨_, -, _, -, _, hclusters, _, hroutes, hendpoints⟩ := h
  have hroute := fun route hmem => RouteConfig.of_check (checkEach_eq_ok.mp hroutes route hmem)
  refine ⟨(checkUnique_eq_ok.mp hclusters).1, ?_, ?_, fun route hmem => (hroute route hmem).2.2.1, ?_, ?_⟩
  · intro route hmem c hc
    exact (hroute route hmem).1 c (Option.mem_toList.mpr hc)
  · intro route hmem splits hsplits s hs
    refine (hroute route hmem).2.1 s.cluster ?_
    rw [hsplits]
    exact List.mem_map_of_mem hs
  · intro route hmem
    rcases Bool.or_eq_true_iff.mp (hroute route hmem).2.2.2 with hcluster | hsplit
    · exact Or.inr (Option.isSome_iff_ne_none.mp hcluster)
    · exact Or.inl (Option.isSome_iff_ne_none.mp hsplit)
  · intro cluster hmem
    have hcheck := ensure_eq_ok.mp (checkEach_eq_ok.mp hendpoints cluster hmem)
    rcases Bool.or_eq_true_iff.mp hcheck with hsome | hmock
    · rw [Bool.not_eq_true', List.isEmpty_eq_false_iff] at hsome
      exact Or.inl hsome
    · exact Or.inr hmock

end Smppd
