import QueryLint.Data.Json.Canonical
import QueryLint.Lint.Basic
import QueryLint.Project.ConfigFile
import QueryLint.Project.Discovery
import QueryLint.Result.Basic

/-!
# Linting a project

Every file of a project is read, parsed and linted by itself. A file that cannot be read, that has
syntax errors or that a rule fails on is noted and left out; the others make up the result. In a
deterministic run the result is marked by a digest of the files' names and sizes in place of a
random number and the time, where a name that is no UTF-8 counts for nothing. Nor can a result with
such a name be written out.
-/
namespace QueryLint.Project

open QueryLint.Code QueryLint.Data QueryLint.Files QueryLint.Lint QueryLint.Text

/-- Why a project cannot be linted. -/
inductive ProjectError where
  | linkLoop (error : Disk.LinkLoop)
  | noRoot (path : String)
  | configFile (error : ConfigFileError)
  | discovery (error : DiscoveryError)
  | notIterable (error : NotIterable)
  | invalid (violation : Schema.Violation)
  | output (error : PathError)
  /-- The result has a name that is no UTF-8. -/
  | stray (what : StrayBytes)

def ProjectError.message : ProjectError → String
  | linkLoop error => error.message
  | noRoot path => "lint_project: root does not exist: " ++ path
  | configFile error => error.message
  | discovery error => error.message
  | notIterable error => error.message
  | invalid violation => violation.message
  | output error => error.message
  | stray what => what.message

/-- What a run is known by. -/
structure Stamp where
  runId : String
  createdAt : String
  deriving DecidableEq, Repr

/-- The time that deterministic runs are noted at. -/
def fixedTime : String := "2000-01-01T00:00:00+00:00"

/-- The folder that the names of a project's files are given from. -/
def baseOf (disk : Disk) (root : FilePath) : FilePath :=
  if disk.isFolder root then root else root.parent

/-- The name of a file in a project: its path from the base, or its whole path if it lies
elsewhere. -/
def nameIn (base p : FilePath) : String :=
  match p.below? base with
  | some parts => (FilePath.mk .current parts).toString
  | none => p.toString

/-- What a file adds to the digest of a deterministic run. -/
def digestPart (disk : Disk) (base p : FilePath) (limits : Limits := .unlimited) : Bytes :=
  match p.below? base with
  | none => utf8 "0"
  | some parts =>
    let name := (FilePath.mk .current parts).toString
    if (limits.strayBytes? 0 name).isSome then utf8 "0"
    else utf8 name ++
      match disk.read p with
      | .ok content => utf8 (toString content.length)
      | .error _ => utf8 "0"

/-- The number of a deterministic run over some files. -/
def deterministicId (disk : Disk) (base : FilePath) (files : List FilePath)
    (limits : Limits := .unlimited) : String :=
  let digest := sha256 (files.flatMap fun p => digestPart disk base p limits)
  "ci-" ++ String.ofList (digest.toList.take 12)

/-- The state of a run between two files. -/
structure Tally where
  findings : List Finding
  errors : List Result.FileError
  /-- The languages that were met so far. -/
  met : List Language
  notes : List Note

/-- Why a file has no source. -/
inductive LoadError where
  | path (error : PathError)
  | undecodable (fault : Utf8.Fault)
  | language (error : LanguageError)
  deriving DecidableEq, Repr

def LoadError.message : LoadError → String
  | path error => error.message
  | undecodable fault => fault.message
  | language error => error.message

/-- The source in a file, shown under a name. -/
def loadSource (grammar : Grammar) (disk : Disk) (p : FilePath) (name : String) :
    Except LoadError Source := do
  let content ← (disk.read p).mapError fun e => .path ⟨e, p.toString⟩
  let text ← (decode content).mapError .undecodable
  let language ← (Language.detect p).mapError .language
  return ⟨name, text, language, grammar language text⟩

/-- A file more that could not be linted. -/
def Tally.fail (t : Tally) (error : Result.FileError) (note : Note) : Tally :=
  { t with errors := t.errors ++ [error], notes := t.notes ++ [note] }

/-- A language that is met, noted if it is new. -/
def Tally.meet (t : Tally) (language : Language) : Tally :=
  if t.met.contains language then t
  else
    { t with
      met := language :: t.met
      notes := t.notes ++
        [⟨.debug, .parser, "Loaded tree-sitter grammar " ++ language.name⟩] }

/-- A file more that a rule failed on. -/
def Tally.failLint (t : Tally) (source : Source) (e : LintError) : Tally :=
  t.fail ⟨source.path, Result.ruleError, e.noted, 0⟩
    ⟨.error, .runner, s!"Linting {source.path} raised an exception, skipped"⟩

def Tally.lint (t : Tally) (source : Source) (config : Config) (rules : Option (List String))
    (limits : Limits := .unlimited) : Tally :=
  let t := t.meet source.language
  if source.hasErrors then
    let line := source.firstErrorLine
    t.fail ⟨source.path, Result.parseError, "syntax error", line⟩
      ⟨.warning, .runner, s!"Syntax error in {source.path} near line {line}, skipped"⟩
  else match Lint.run source config rules limits with
    | .ok linted =>
      let t : Tally := { t with notes := t.notes ++ [⟨.debug, .linter,
        s!"Linted {source.path}: {source.tree.size} nodes, {linted.rules} rule(s)"⟩] }
      match linted.findings with
      | .ok findings => { t with findings := t.findings ++ findings }
      | .error e => t.failLint source e
    | .error e => t.failLint source e

def Tally.lintFile (grammar : Grammar) (disk : Disk) (base : FilePath) (config : Config)
    (rules : Option (List String)) (limits : Limits) (t : Tally) (p : FilePath) : Tally :=
  let name := nameIn base p
  match loadSource grammar disk p name with
  | .ok source => t.lint source config rules limits
  | .error e =>
    t.fail ⟨name, Result.readError, e.message, 0⟩
      ⟨.warning, .runner, s!"Cannot read {name}: {e.message}"⟩

/-- The name of the file that a result is written to. -/
def resultName : String := "lint_result.json"

/-- The names that a result over the files below a folder has. -/
def namesOf (root : FilePath) (result : LintResult) : List String :=
  root.toString :: result.findings.map (·.location.path) ++ result.errors.map (·.path)

/-- The first bytes in the text of a result that are no UTF-8: none unless a name has some. -/
def strayIn (limits : Limits) (names : List String) (text : String) : Option StrayBytes :=
  if names.any fun name => (limits.strayBytes? 0 name).isSome then limits.strayBytes? 0 text
  else none

/-- Writes a result over the files below `root` into a folder, which is made if it is not there. -/
def writeResult (disk : Disk) (root folder : FilePath) (result : LintResult)
    (limits : Limits := .unlimited) : Logged (Except ProjectError Disk) :=
  let p := folder.child resultName
  let text := Json.canonical (some Json.usualIndent) result.toValue
  match disk.makeFolders folder with
  | .error e => .quiet (.error (.output e))
  | .ok disk =>
    match disk.write p (utf8 text), strayIn limits (namesOf root result) text with
    | .error e, _ => .quiet (.error (.output ⟨e, p.toString⟩))
    | .ok _, some what => .quiet (.error (.stray what))
    | .ok disk, none => ⟨[⟨.info, .runner, s!"Wrote {p}"⟩], .ok disk⟩

/-- What is to be linted, and how. -/
structure Task where
  /-- The folder or file, as a path from the root of the disk without links. -/
  root : FilePath
  config : Config
  rules : Option (List String)
  /-- The folder to write the result into. -/
  outFolder : Option FilePath
  /-- What the run is known by. A deterministic run goes by its files. -/
  stamp : Option Stamp

/-- The result of a run over some files, and what is noted on the way. -/
def assemble (disk : Disk) (task : Task) (files : List FilePath) (t : Tally)
    (limits : Limits := .unlimited) : Except ProjectError LintResult := do
  let base := baseOf disk task.root
  let settings ← task.config.toMembers.mapError .notIterable
  let stamp := task.stamp.getD ⟨deterministicId disk base files limits, fixedTime⟩
  let result : LintResult :=
    { runId := stamp.runId
      createdAt := stamp.createdAt
      toolVersion := Result.toolVersion
      engineVersion := Result.engineVersion
      config := ("root", .text task.root.toString) :: settings
      filesScanned := files.length
      findings := t.findings
      errors := t.errors }
  match Schema.check Schema.lintResult result.toValue with
  | none => return result
  | some violation => throw (.invalid violation)

def runTask (grammar : Grammar) (disk : Disk) (task : Task) (limits : Limits := .unlimited) :
    Logged (Except ProjectError (LintResult × Disk)) :=
  let config := task.config
  match discover disk task.root config.included config.excluded config.maxFileBytes with
  | .error e => .quiet (.error (.discovery e))
  | .ok files =>
    let base := baseOf disk task.root
    let t := files.foldl (Tally.lintFile grammar disk base config task.rules limits)
      ⟨[], [], [], [⟨.info, .runner, s!"Linting {files.length} file(s) under {task.root}"⟩]⟩
    Logged.andThen ⟨t.notes, assemble disk task files t limits⟩ fun result =>
      match task.outFolder with
      | none => .quiet (.ok (result, disk))
      | some folder =>
        (writeResult disk task.root folder result limits).andThen fun disk =>
          .quiet (.ok (result, disk))

/-- Where the configuration of a run comes from. -/
inductive ConfigSource where
  | given (config : Config)
  | members (object : Members)
  /-- The configuration of the project. -/
  | project

def ConfigSource.config (yaml : YamlReader) (env : Environment) (disk : Disk) (root : FilePath) :
    ConfigSource → Logged (Except ConfigFileError Config)
  | given config => .quiet (.ok config)
  | .members object => (configOf object).mapError .config
  | project => discoverConfig yaml env disk (baseOf disk root)

def lintProject (grammar : Grammar) (yaml : YamlReader) (env : Environment) (disk : Disk)
    (path : FilePath) (source : ConfigSource) (rules : Option (List String))
    (outFolder : Option FilePath) (stamp : Option Stamp) (limits : Limits := .unlimited) :
    Logged (Except ProjectError (LintResult × Disk)) :=
  match disk.resolve path with
  | .error e => .quiet (.error (.linkLoop e))
  | .ok root =>
    if disk.hasEntry root then
      ((source.config yaml env disk root).mapError .configFile).andThen fun config =>
        runTask grammar disk ⟨root, config, rules, outFolder, stamp⟩ limits
    else .quiet (.error (.noRoot root.toString))

end QueryLint.Project
