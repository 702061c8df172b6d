import QueryLint.Environment
import QueryLint.Files.Disk
import QueryLint.Lint.Config
import QueryLint.Project.Log
import QueryLint.Text.Lines

/-!
# Configuration files

A project may hold a configuration in a YAML file of its own; an environment variable may name
another file to use in its place. A file without content is an empty configuration.
-/
namespace QueryLint.Project

open QueryLint.Data QueryLint.Files QueryLint.Lint QueryLint.Text

/-- How YAML is read: the value of a text, or the name of what is wrong with it. -/
abbrev YamlReader := String → Except String Value

/-- The reader that knows the texts in a list of objects, each with a text and its value or the
name of what is wrong with it. -/
def YamlReader.ofValue (entries : Value) : YamlReader := fun text =>
  match entries.asList.find? fun entry => ((entry.get? "text").getD .null).asText = text with
  | none => .error "YAMLError"
  | some entry =>
    match entry.get? "error" with
    | some name => .error name.asText
    | none => .ok ((entry.get? "value").getD .null)

/-- The environment variable that names a configuration file. -/
def configVariable : String := "QUERY_AUDIT_CONFIG"

/-- The names of the configuration files of a project, the first one found counts. -/
def configNames : List String := [".query-audit.yaml", ".query-audit.yml"]

/-- Why there is no configuration in a file. -/
inductive ConfigFileError where
  | path (error : PathError)
  | undecodable (fault : Utf8.Fault)
  | yaml (name : String)
  | noMapping (file typeName : String)
  | config (error : ConfigError)

def ConfigFileError.message : ConfigFileError → String
  | path error => error.message
  | undecodable fault => fault.message
  | yaml name => name
  | noMapping file typeName => s!"{file}: config must be a mapping, got {typeName}"
  | config error => error.message

/-- A text as it is read from a file, with line feeds only. A character that breaks off at the
end is told by its own place, not the file's. -/
def readText (content : Bytes) : Except Utf8.Fault String :=
  match decode content with
  | .ok s => .ok (String.ofList (plainNewlines s.toList))
  | .error fault =>
    .error (if fault.reason = .unexpectedEnd then { fault with start := 0 } else fault)

/-- The note about keys that mean nothing to a configuration, if there are any. -/
def unknownKeysNote (members : Members) : List Note :=
  match Config.unknownKeys members with
  | [] => []
  | keys => [⟨.warning, .config, "Ignoring unknown config keys: " ++ ", ".intercalate keys⟩]

def configOf (members : Members) : Logged (Except ConfigError Config) :=
  ⟨unknownKeysNote members, Config.ofMembers members⟩

def readMembers (yaml : YamlReader) (disk : Disk) (p : FilePath) :
    Except ConfigFileError Members := do
  let content ← (disk.read p).mapError fun e => .path ⟨e, p.toString⟩
  let text ← (readText content).mapError .undecodable
  match (yaml text).mapError .yaml with
  | .error e => .error e
  | .ok v =>
    if !v.isTruthy then .ok []
    else match v with
      | .object members => .ok members
      | v => .error (.noMapping p.toString v.typeName)

def loadConfig (yaml : YamlReader) (disk : Disk) (p : FilePath) :
    Logged (Except ConfigFileError Config) :=
  (Logged.quiet (readMembers yaml disk p)).andThen fun members =>
    ((configOf members).mapError .config).after
      [⟨.debug, .config, s!"Loaded config from {p}"⟩]

/-- The configuration of a project: from the file that the environment names, or else from the
project's own file, or else the default. -/
def discoverConfig (yaml : YamlReader) (env : Environment) (disk : Disk) (root : FilePath) :
    Logged (Except ConfigFileError Config) :=
  match (env.lookup configVariable).filter (· ≠ "") with
  | some named => loadConfig yaml disk (.ofString named)
  | none =>
    match (configNames.map root.child).find? disk.isFile with
    | some p => loadConfig yaml disk p
    | none => .quiet (.ok .default)

end QueryLint.Project
