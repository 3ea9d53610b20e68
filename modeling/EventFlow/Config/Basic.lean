import EventFlow.Engine.Settings
import EventFlow.Toml.Reader

/-!
# The configuration file

A TOML document of five sections. Sections and fields that are missing take their defaults, and
what is unknown is ignored.
-/

set_option autoImplicit false

namespace EventFlow

/-- What the configuration file sets. -/
structure Config where
  engine : EngineSettings
  /-- The address that the server listens on. -/
  bind : String
  /-- The file of the store's snapshot. -/
  storePath : String
  /-- How many events are kept for each subscriber. -/
  eventCapacity : Nat
  /-- The directory that file actions write under. -/
  fileBaseDir : String
  apiTimeoutSecs : UInt64
deriving DecidableEq

/-- Why a configuration cannot be had. -/
inductive ConfigError where
  | unreadable (path : String)
  | invalid (path : String)
deriving DecidableEq

namespace ConfigError

/-- What a caller is told. -/
def message : ConfigError → String
  | unreadable path => s!"cannot read config file {path}"
  | invalid path => s!"invalid config file {path}"

end ConfigError

namespace Config

/-- The configuration that holds without a file. -/
def default : Config :=
  ⟨.default, "0.0.0.0:8080", "workflow-store.json", 256, "workflow-output", 30⟩

/-- A section that is a list holds its fields in order; what is too much is ignored. -/
def sectionForm (names : List String) : Document → Document
  | .array items => .array (items.take names.length)
  | d => d

/-- A section of the configuration. -/
def readSection {α : Type} (fields : Fields) (name : String) (names : List String)
    (read : Fields → Reading α) : Reading α :=
  fields.orElse name (fun d => Fields.ofDocument names (sectionForm names d) >>= read)
    (read ⟨[], false⟩)

/-- A configuration that is read. -/
def read (d : Document) : Reading Config := do
  let names := ["engine", "server", "store", "events", "handlers"]
  let fields ← Fields.ofDocument names (sectionForm names d)
  let engine ← fields.orElse "engine"
    (fun d => EngineSettings.read (sectionForm EngineSettings.fieldNames d)) (pure .default)
  let bind ← readSection fields "server" ["bind"] fun f => f.text "bind" default.bind
  let storePath ← readSection fields "store" ["path"] fun f => f.text "path" default.storePath
  let eventCapacity ← readSection fields "events" ["capacity"] fun f =>
    f.orElse "capacity" (Document.readNat UInt64.size) (pure default.eventCapacity)
  let (fileBaseDir, apiTimeoutSecs) ←
    readSection fields "handlers" ["file_base_dir", "api_timeout_secs"] fun f => do
      let dir ← f.text "file_base_dir" default.fileBaseDir
      let secs ← f.orElse "api_timeout_secs" Document.readUInt64 (pure default.apiTimeoutSecs)
      return (dir, secs)
  return ⟨engine, bind, storePath, eventCapacity, fileBaseDir, apiTimeoutSecs⟩

/-- The configuration of a file, given its path and its text if it can be read. -/
def ofFile (path : String) (content : Option String) : Except ConfigError Config :=
  content.elim (.error (.unreadable path)) fun text =>
    match (Toml.read? text).bind fun d => (read d).run' ⟨⟨0, 0⟩, 0⟩ with
    | some config => .ok config
    | none => .error (.invalid path)

/-- A configuration as it is written, each section an object. -/
def document (c : Config) : Document :=
  .object [("engine", c.engine.document), ("server", .object [("bind", .string c.bind)]),
    ("store", .object [("path", .string c.storePath)]),
    ("events", .object [("capacity", .ofNat c.eventCapacity)]),
    ("handlers", .object [("file_base_dir", .string c.fileBaseDir),
      ("api_timeout_secs", .ofUInt64 c.apiTimeoutSecs)])]

end Config

end EventFlow
