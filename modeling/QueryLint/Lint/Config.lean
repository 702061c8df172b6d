import QueryLint.Data.Items
import QueryLint.Rule.Registry

/-!
# Configurations

A configuration says which files are looked at and how serious each rule is. It is read from an
object whose members may be left out. The rules are checked when it is read. The patterns and the
size limit are kept as they were given, and are checked only when they are put to use.
-/
namespace QueryLint.Lint

open QueryLint.Data QueryLint.Text
open QueryLint.Finding (Severity)

/-- The patterns of the files that are looked at by default. -/
def defaultPatterns : List String :=
  ["**/*.test.js", "**/*.test.jsx", "**/*.test.ts", "**/*.test.tsx",
   "**/*.spec.js", "**/*.spec.jsx", "**/*.spec.ts", "**/*.spec.tsx",
   "**/__tests__/**/*.js", "**/__tests__/**/*.jsx", "**/__tests__/**/*.ts",
   "**/__tests__/**/*.tsx"]

/-- A configuration. -/
structure Config where
  /-- The patterns of the files that are looked at. -/
  included : Value
  /-- The names of files and directories that are left out. -/
  excluded : Value
  /-- The severity of each rule. -/
  severities : List (String × Severity)
  /-- The size in bytes beyond which files are left out. -/
  maxFileBytes : Value

/-- Why an object is no configuration. -/
inductive ConfigError where
  | rulesNoMapping (typeName : String)
  | unknownRule (id : String)
  | invalidSeverity (value : Value) (id : String)

def ConfigError.message : ConfigError → String
  | .rulesNoMapping typeName => "rules must be a mapping, got " ++ typeName
  | .unknownRule id => Rule.unknown id
  | .invalidSeverity value id =>
    let allowed := ", ".intercalate (Severity.all.map (·.name))
    s!"invalid severity {value.quoted} for {Text.quoted id} (expected one of: {allowed})"

namespace Config

/-- The recommended severity of each public rule. -/
def recommended : List (String × Severity) :=
  Rule.Registry.current.publicIds.filterMap fun id =>
    (Rule.ofId? id).map fun rule => (id, rule.info.recommended)

def default : Config where
  included := .texts defaultPatterns
  excluded := .list []
  severities := recommended
  maxFileBytes := .int 2000000

/-- The severity that a value stands for. The value false stands for off. -/
def severityOf? : Value → Option Severity
  | .bool false => some .off
  | .text s => Severity.ofName? s
  | _ => none

def severityEntry (entry : String × Value) : Except ConfigError (String × Severity) :=
  if (Rule.ofId? entry.1).isNone then .error (.unknownRule entry.1)
  else match severityOf? entry.2 with
    | some severity => .ok (entry.1, severity)
    | none => .error (.invalidSeverity entry.2 entry.1)

/-- The severities that the value of the member for rules gives. -/
def givenSeverities : Value → Except ConfigError (List (String × Severity))
  | .null => .ok []
  | .object members => members.mapM severityEntry
  | v => .error (.rulesNoMapping v.typeName)

/-- The recommended severities with those that are given in their place. -/
def withSeverities (given : List (String × Severity)) : List (String × Severity) :=
  recommended.map fun entry => (entry.1, (given.lookup entry.1).getD entry.2)

def knownKeys : List String := ["include", "exclude", "rules", "max_file_bytes"]

/-- The keys of an object that mean nothing to a configuration, in order. They are overlooked. -/
def unknownKeys (members : Members) : List String :=
  sortedSet ((Members.keys members).filter (!knownKeys.contains ·))

def ofMembers (members : Members) : Except ConfigError Config := do
  let given ← match Members.get? members "rules" with
    | some v => givenSeverities v
    | none => .ok []
  return {
    included := (Members.get? members "include").getD default.included
    excluded := (Members.get? members "exclude").getD default.excluded
    severities := withSeverities given
    maxFileBytes := (Members.get? members "max_file_bytes").getD default.maxFileBytes }

/-- The severity of a rule. A rule that is not known is off. -/
def severityFor (config : Config) (id : String) : Severity :=
  (config.severities.lookup id).getD .off

def enabledRules (config : Config) : List String :=
  Rule.Registry.current.allIds.filter (config.severityFor · ≠ .off)

def toMembers (config : Config) : Except NotIterable Members := do
  let included ← config.included.items
  let excluded ← config.excluded.items
  return [
    ("include", .list included), ("exclude", .list excluded),
    ("rules", .object ((config.severities.mergeSort fun a b => textLe a.1 b.1).map
      fun entry => (entry.1, .text entry.2.name))),
    ("max_file_bytes", config.maxFileBytes)]

end Config

end QueryLint.Lint
