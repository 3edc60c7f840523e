/-
  The FILE STORE of configurations (`src/config/store/file.rs`).

  `save` validates a configuration, writes it to a file with the extension `tmp`, and renames that file; `load` is that
  of the loader.  It says "write atomically", and it does (`saves_run`): in whatever order tasks save and load, fail
  and are killed, a configuration file is at any time what it was in the beginning or the whole text of a
  configuration that is valid, and whoever loads it gets what it was when it was opened.

  But the temporary file has one name for all who save to a path, and for all paths that differ in the extension only.
  Two of these may not save at the same time (`torn_save`).

  A file has one path here, and no file system forgets what was written when the machine goes down.
-/
import Smppd.Config.Loader
import Smppd.Lib.Replace

namespace Smppd

open Machine Record

/-! ## The store -/

/-- Configuration storage error. -/
inductive ConfigError where
  | loadFailed (message : String)
  | saveFailed (message : String)
  | validationFailed (message : String)
  | io (message : String)
  | serialization (message : String)
  | backend (message : String)

/-- What the crates `serde_yaml`, `serde_json` and `toml` write, and what they read. -/
structure Serde where
  serialize : Format → Config → Except String String
  parse : Format → String → Option Config

/-- `Path::with_extension`, where the extension is text that ends the path. -/
def ConfigPath.withExtension (extension : String) (self : ConfigPath) : ConfigPath where
  display :=
    match self.extension with
    | some ext => String.ofList (self.display.toList.take (self.display.length - ext.length)) ++ extension
    | none => self.display ++ "." ++ extension
  extension := some extension

deriving instance DecidableEq for ConfigPath

/-- File-based configuration store. -/
structure FileConfigStore where
  path : ConfigPath
  format : Format

namespace FileConfigStore

/-- `FileConfigStore::new`: the format is detected from the file extension. -/
def new (path : ConfigPath) : Except ConfigError FileConfigStore :=
  match Format.fromPath path with
  | some format => .ok ⟨path, format⟩
  | none => .error (.loadFailed s!"unsupported config format: {path.display}")

/-- `serialize`. -/
def serialize (serde : Serde) (config : Config) (self : FileConfigStore) : Except ConfigError String :=
  (serde.serialize self.format config).mapError .serialization

/-- What `save` comes to before it writes. -/
def contents (serde : Serde) (config : Config) (self : FileConfigStore) : Except ConfigError String := do
  config.validate.mapError .validationFailed
  self.serialize serde config

/-- The file that is written first. -/
def tempPath (self : FileConfigStore) : ConfigPath := self.path.withExtension "tmp"

/-- `load`. -/
def load (files : Files) (self : FileConfigStore) : Except ConfigError Config :=
  (Config.load files self.path).mapError .loadFailed

end FileConfigStore

/-! ## Tasks that save and load -/

/-- The bytes of a text. -/
def encodeText (text : String) : List UInt8 := text.toUTF8.data.toList

/-- `fs::read_to_string` fails where the bytes are not UTF-8. -/
def decodeText (bytes : List UInt8) : Option String := String.fromUTF8? ⟨bytes.toArray⟩

theorem decodeText_encodeText (text : String) : decodeText (encodeText text) = some text := by
  rw [decodeText, encodeText, Array.toArray_toList, String.toUTF8_eq_toByteArray]
  unfold String.fromUTF8?
  exact dif_pos text.isValidUTF8

variable {Task : Type} (serde : Serde) (stores : Task → FileConfigStore)

/-- The names, and the texts, of the tasks. -/
def saves : Replace.Names Task ConfigPath Config UInt8 where
  path task := (stores task).path
  temp task := (stores task).tempPath
  accepts task config :=
    match (stores task).contents serde config with
    | .ok _ => true
    | .error _ => false
  text task config :=
    match (stores task).contents serde config with
    | .ok text => encodeText text
    | .error _ => []

/-- What the loader finds. -/
def filesOf (files : Replace.FileSystem ConfigPath UInt8) : Files where
  read path := (files.read path).bind decodeText
  parse := serde.parse

variable {serde stores}

theorem FileConfigStore.fromPath_of_new {path : ConfigPath} {store : FileConfigStore}
    (hnew : FileConfigStore.new path = .ok store) : Format.fromPath store.path = some store.format := by
  unfold FileConfigStore.new at hnew
  split at hnew
  · rename_i format hformat
    cases hnew
    exact hformat
  · cases hnew

/-- The temporary file is no configuration file. -/
theorem fromPath_tempPath (store : FileConfigStore) : Format.fromPath store.tempPath = none := rfl

theorem FileConfigStore.contents_eq_ok {config : Config} {store : FileConfigStore} {text : String} :
    store.contents serde config = .ok text ↔
      config.validate = .ok () ∧ serde.serialize store.format config = .ok text := by
  unfold FileConfigStore.contents FileConfigStore.serialize
  cases config.validate with
  | error e => exact iff_of_false (by rintro ⟨⟩) fun h => by cases h.1
  | ok _ =>
    rw [and_iff_right rfl]
    cases serde.serialize store.format config with
    | error e => exact iff_of_false (by rintro ⟨⟩) (by rintro ⟨⟩)
    | ok text' =>
      constructor <;> rintro ⟨⟩ <;> rfl

theorem accepts_eq_true {task : Task} {config : Config} (h : (saves serde stores).accepts task config = true) :
    ∃ text, (stores task).contents serde config = .ok text ∧
      (saves serde stores).text task config = encodeText text := by
  change (match (stores task).contents serde config with
    | .ok _ => true
    | .error _ => false) = true at h
  show ∃ text, _ ∧ (match (stores task).contents serde config with
    | .ok text => encodeText text
    | .error _ => []) = encodeText text
  cases hcontents : (stores task).contents serde config with
  | ok text => exact ⟨text, rfl, rfl⟩
  | error e =>
    rw [hcontents] at h
    cases h

/-- What is read, parsed and valid is loaded. -/
theorem load_eq_ok {files : Files} {store : FileConfigStore} {text : String} {config : Config}
    (hformat : Format.fromPath store.path = some store.format) (hread : files.read store.path = some text)
    (hparse : files.parse store.format text = some config) (hvalid : config.validate = .ok ()) :
    store.load files = .ok config := by
  have hload : Config.load files store.path = .ok config := by
    simp only [Config.load, hformat, hread, withContext]
    cases hf : store.format <;> rw [hf] at hparse <;>
      simp [Config.fromYaml, Config.fromJson, Config.fromToml, Config.fromText, withContext, hparse, hvalid]
  rw [FileConfigStore.load, hload]
  rfl

/-! ## Whole runs -/

/-- What the files are, and what is loaded. -/
structure Saves (serde : Serde) (stores : Task → FileConfigStore) (initial : Replace.FileSystem ConfigPath UInt8)
    (s : Replace.System Task ConfigPath Config UInt8 × List (Replace.Event Task Config UInt8)) : Prop where
  /-- A file is what it was, or has a whole text. -/
  whole : ∀ task, s.1.files.read (stores task).path =
    Replace.content (saves serde stores) initial (stores task).path s.2
  /-- A configuration that was saved is valid. -/
  valid : ∀ task config, .saved task config ∈ s.2 → config.validate = .ok ()
  /-- It is loaded again, if it can be read again. -/
  reloaded : ∀ task task' config,
    Replace.lastSaved (saves serde stores) (stores task).path s.2 = some (task', config) →
      ∃ text, serde.serialize (stores task).format config = .ok text ∧
        (serde.parse (stores task).format text = some config →
          (stores task).load (filesOf serde s.1.files) = .ok config)
  /-- Whoever loads a file gets what it was when it was opened. -/
  loaded : Backed (Replace.Loaded (saves serde stores) initial) s.2

/-- **Configurations are written atomically**, as long as no task begins to save while another one saves under the
    same temporary name. -/
theorem saves_run [DecidableEq Task] (serde : Serde) (stores : Task → FileConfigStore)
    (hnew : ∀ task, ∃ path, FileConfigStore.new path = .ok (stores task))
    (files : Replace.FileSystem ConfigPath UInt8) (hnamed : Replace.Named files.dir files.next)
    (steps : List (Replace.Step Task Config))
    (s : Replace.System Task ConfigPath Config UInt8 × List (Replace.Event Task Config UInt8))
    (hrun : run (noted (Replace.step (saves serde stores))) (Replace.start files, []) steps = some s)
    (halone : Meets (noted (Replace.step (saves serde stores))) (Replace.Alone (saves serde stores))
      (Replace.start files, []) steps) : Saves serde stores files s := by
  have hformat : ∀ task, Format.fromPath (stores task).path = some (stores task).format := by
    intro task
    obtain ⟨path, hpath⟩ := hnew task
    exact FileConfigStore.fromPath_of_new hpath
  have happart : ∀ task task', (saves serde stores).temp task ≠ (saves serde stores).path task' := by
    intro task task' heq
    have hnone := fromPath_tempPath (stores task)
    rw [show (stores task).tempPath = (stores task').path from heq, hformat task'] at hnone
    cases hnone
  have hwhole := Replace.whole_run happart hnamed hrun halone
  refine ⟨hwhole.whole, fun task config hmem => ?_, fun task task' config hlast => ?_, hwhole.loaded⟩
  · obtain ⟨text, hcontents, -⟩ := accepts_eq_true (hwhole.accepted task config hmem)
    exact (FileConfigStore.contents_eq_ok.mp hcontents).1
  · obtain ⟨hmem, hpath⟩ := Replace.mem_of_lastSaved hlast
    change (stores task').path = (stores task).path at hpath
    obtain ⟨text, hcontents, htext⟩ := accepts_eq_true (hwhole.accepted task' config hmem)
    obtain ⟨hvalid, hserialize⟩ := FileConfigStore.contents_eq_ok.mp hcontents
    have hsame : (stores task').format = (stores task).format :=
      Option.some.inj ((hformat task').symm.trans (hpath ▸ hformat task))
    have hread : (filesOf serde s.1.files).read (stores task).path = some text := by
      have hcontent : s.1.files.read (stores task).path = some (encodeText text) :=
        (hwhole.whole task).trans ((Replace.content_of_lastSaved hlast).trans (congrArg some htext))
      show (s.1.files.read (stores task).path).bind decodeText = some text
      rw [hcontent, Option.bind_some, decodeText_encodeText]
    exact ⟨text, hsame ▸ hserialize, fun hparse => load_eq_ok (hformat task) hread hparse hvalid⟩

/-- A configuration with one listener. -/
def oneListener : Config := { listeners := [{ name := "test", address := "0.0.0.0:2775" }] }

/-- A serializer that writes next to nothing. -/
def briefSerde : Serde where
  serialize _ _ := .ok "{}"
  parse _ text := if text = "{}" then some oneListener else none

/-- A store of a YAML file, and of a JSON file next to it. -/
def twoStores (yaml : Bool) : FileConfigStore :=
  if yaml then ⟨⟨"smppd.yaml", some "yaml"⟩, .yaml⟩ else ⟨⟨"smppd.json", some "json"⟩, .json⟩

/-- An empty directory. -/
def noFiles : Replace.FileSystem ConfigPath UInt8 := ⟨fun _ => none, fun _ => [], 0⟩

theorem named_noFiles : Replace.Named noFiles.dir noFiles.next := ⟨fun h => (by cases h), fun h => (by cases h)⟩

/-- One of them is saved, and loaded while the other is saved. -/
def savedTwice : List (Replace.Step Bool Config) :=
  [.create true oneListener, .write true 1, .rename true, .load true, .read true 1, .create false oneListener,
    .read true 0, .abandon false]

theorem saves_savedTwice :
    ∃ s, run (noted (Replace.step (saves briefSerde twoStores))) (Replace.start noFiles, [])
        savedTwice = some s ∧
      Saves briefSerde twoStores noFiles s := by
  have hsome : (run (noted (Replace.step (saves briefSerde twoStores)))
      (Replace.start noFiles, []) savedTwice).isSome = true := by
    decide +kernel
  obtain ⟨s, hrun⟩ := Option.isSome_iff_exists.mp hsome
  exact ⟨s, hrun, saves_run briefSerde twoStores (fun yaml => ⟨(twoStores yaml).path, by cases yaml <;> rfl⟩) noFiles
    named_noFiles savedTwice s hrun (by decide +kernel)⟩

/-- The extension is what changes. -/
theorem withExtension_append (stem ext extension : String) :
    ConfigPath.withExtension extension ⟨stem ++ "." ++ ext, some ext⟩ = ⟨stem ++ "." ++ extension, some extension⟩ := by
  have hlength : (stem ++ "." ++ ext).length - ext.length = (stem ++ ".").toList.length := by
    rw [String.length_append, Nat.add_sub_cancel, String.length_toList]
  have hlist : (stem ++ "." ++ ext).toList = (stem ++ ".").toList ++ ext.toList := String.toList_append
  unfold ConfigPath.withExtension
  dsimp only
  rw [hlength, hlist, List.take_left, String.ofList_toList]

/-- **One temporary name** for all paths that differ in the extension only. -/
theorem tempPath_of_stem (stem ext ext' : String) (format format' : Format) :
    FileConfigStore.tempPath ⟨⟨stem ++ "." ++ ext, some ext⟩, format⟩ =
      FileConfigStore.tempPath ⟨⟨stem ++ "." ++ ext', some ext'⟩, format'⟩ :=
  (withExtension_append stem ext "tmp").trans (withExtension_append stem ext' "tmp").symm

/-- **Two tasks tear a file** when they save under the same temporary name: the one that succeeds may leave any
    beginning of the text of the other. -/
theorem torn_save [DecidableEq Task] (serde : Serde) (stores : Task → FileConfigStore) (task task' : Task)
    (hne : task ≠ task') (htemp : (stores task).tempPath = (stores task').tempPath) (config config' : Config)
    (text text' : String) (hcontents : (stores task).contents serde config = .ok text)
    (hcontents' : (stores task').contents serde config' = .ok text') (n : Nat) (hn : n ≤ (encodeText text').length)
    (files : Replace.FileSystem ConfigPath UInt8) (hnamed : Replace.Named files.dir files.next) :
    ∃ steps next, run (noted (Replace.step (saves serde stores))) (Replace.start files, []) steps =
        some (next, [.saved task config]) ∧
      next.files.read (stores task).path = some ((encodeText text').take n) := by
  have haccepts : ∀ {t c x}, (stores t).contents serde c = .ok x →
      (saves serde stores).accepts t c = true ∧ (saves serde stores).text t c = encodeText x := by
    intro t c x hok
    simp only [saves, hok, and_self]
  obtain ⟨haccepts', htext'⟩ := haccepts hcontents'
  have htorn := Replace.torn_run hne htemp (haccepts hcontents).1 haccepts' (htext' ▸ hn) hnamed
  rwa [htext'] at htorn

theorem torn_twoStores :
    ∃ steps next, run (noted (Replace.step (saves briefSerde twoStores)))
        (Replace.start noFiles, []) steps = some (next, [.saved true oneListener]) ∧
      next.files.read (twoStores true).path = some ((encodeText "{}").take 1) :=
  torn_save briefSerde twoStores true false (by decide) (tempPath_of_stem "smppd" "yaml" "json" .yaml .json) oneListener
    oneListener "{}" "{}" rfl rfl 1 (by decide) noFiles named_noFiles

end Smppd
