import QueryLint.Command.Listing
import QueryLint.Command.Request
import QueryLint.Project.Apply
import QueryLint.Project.Document
import QueryLint.Project.Run
import QueryLint.Text.LowerCase

/-!
# Carrying out requests

A request is carried out on a disk: it says things on two channels, may change files, and ends with
an exit code, or with a failure that it has no words of its own for. Nothing else happens, so that
what a command line does can be stated.
-/
namespace QueryLint.Command

open QueryLint.Code QueryLint.Data QueryLint.Files QueryLint.Project QueryLint.Text
open QueryLint.Result (ExitCode verdict)

/-- What is said while a request is carried out, on the channel for answers or the one for all
else. -/
inductive Said where
  | answer (text : String)
  | remark (text : String)
  deriving DecidableEq, Repr

/-- A failure that the lint command does not explain. -/
inductive Failure where
  | linkLoop (error : Disk.LinkLoop)
  | project (error : ProjectError)
  /-- The edits of a file left bytes that are no text. -/
  | undecodable (fault : Utf8.Fault)

def Failure.message : Failure → String
  | linkLoop error => error.message
  | project error => error.message
  | undecodable fault => fault.message

/-- What came of a request. -/
structure Outcome where
  said : List Said
  disk : Disk
  ending : Except Failure ExitCode

namespace Outcome

/-- An end, with nothing said. -/
def silent (disk : Disk) (code : ExitCode) : Outcome := ⟨[], disk, .ok code⟩

/-- The same after other things were said. -/
def after (said : List Said) (o : Outcome) : Outcome := { o with said := said ++ o.said }

@[simp] theorem disk_after (said : List Said) (o : Outcome) : (o.after said).disk = o.disk := rfl

@[simp] theorem ending_after (said : List Said) (o : Outcome) :
    (o.after said).ending = o.ending := rfl

/-- What was said for answers. -/
def answers (o : Outcome) : String :=
  String.join (o.said.filterMap fun | .answer text => some text | .remark _ => none)

/-- What was said besides. -/
def remarks (o : Outcome) : String :=
  String.join (o.said.filterMap fun | .remark text => some text | .answer _ => none)

end Outcome

/-- The end of a request that is refused with a remark. -/
def refuse (disk : Disk) (code : ExitCode) (remark : String) : Outcome :=
  ⟨[.remark (remark ++ "\n")], disk, .ok code⟩

/-- Where a request is carried out. -/
structure Setting where
  grammar : Grammar
  yaml : YamlReader
  environment : Environment
  /-- What a run is known by that need not be deterministic. -/
  stamp : Stamp

/-- The environment variable that asks for deterministic runs by a one. -/
def deterministicVariable : String := "QUERY_AUDIT_DETERMINISTIC"

/-- The environment variable that is set where builds run. -/
def buildVariable : String := "CI"

/-- The words for yes in the environment of a build. -/
def yesWords : List String := ["1", "true", "yes", "on"]

/-- Whether the environment asks for deterministic runs only. -/
def wantsDeterministic (env : Environment) : Bool :=
  env.lookup deterministicVariable == some "1" ||
    yesWords.contains (lower ((env.lookup buildVariable).getD ""))

/-- Whether an error is one of what the user gave: a path, a file or a pattern. -/
def isRefusal : ProjectError → Bool
  | .noRoot _ => true
  | .configFile (.yaml _) => false
  | .configFile _ => true
  | .discovery (.glob .empty) => true
  | .discovery (.glob .gluedStars) => true
  | .discovery (.unacceptable _) => true
  | .output _ => true
  | .stray _ => true
  | _ => false

/-- The notes that are shown: all that matter, or all there are. -/
def shownNotes (verbose : Bool) (notes : List Note) : List Said :=
  (notes.filter fun n => verbose || n.level.isWarning).map fun n => .remark (n.line ++ "\n")

/-- The findings with suggestions in each file, by the order of the paths. -/
def suggestionsByFile (findings : List Finding) : List (String × List Finding) :=
  let suggesting := findings.filter fun f => !f.suggestions.isEmpty
  (sortedSet (suggesting.map (·.location.path))).map fun path =>
    (path, suggesting.filter (·.location.path = path))

/-- What is said about a file that suggestions were applied to. -/
def appliedRemark (dryRun : Bool) (path : String) (a : Applied) : String :=
  let did := if dryRun then "would apply" else "applied"
  String.join (a.errors.map fun e => s!"error: {path}: {e}\n") ++
    s!"  {path}: {did} {a.applied} suggestion(s)\n"

/-- Applies the suggestions to the files below a folder, one file after the other. -/
def applyToFiles (base : FilePath) (dryRun : Bool) :
    List (String × List Finding) → Disk → List Said × Disk × Option Utf8.Fault
  | [], disk => ([], disk, none)
  | (path, findings) :: rest, disk =>
    match applySuggestions diskAccess disk (base.join (.ofString path)) findings true dryRun with
    | .error fault => ([], disk, some fault)
    | .ok (a, disk) =>
      let (said, final, fault) := applyToFiles base dryRun rest disk
      (.remark (appliedRemark dryRun path a) :: said, final, fault)

/-- What follows once a project is linted: the listing, the data, the suggestions, and the
verdict. -/
def conclude (disk : Disk) (root : FilePath) (settings : LintSettings) (r : LintResult) :
    Outcome :=
  let listed := .remark (listing r) ::
    if settings.json then [Said.answer (Json.canonical (some Json.usualIndent) r.toValue)] else []
  let (said, changed, fault) :=
    if settings.applySuggestions then
      applyToFiles (baseOf disk root) settings.dryRun (suggestionsByFile r.findings) disk
    else ([], disk, none)
  let ending : Outcome := match fault with
    | some fault => ⟨[], changed, .error (.undecodable fault)⟩
    | none =>
      match verdict r settings.maxWarnings with
      | (code, some remark) => refuse changed code remark
      | (code, none) => .silent changed code
  ending.after (listed ++ said)

/-- The configuration that the settings name, or else that of the project. -/
def configSource (setting : Setting) (disk : Disk) (settings : LintSettings) :
    Logged (Except ProjectError ConfigSource) :=
  match settings.config with
  | none => .quiet (.ok .project)
  | some p =>
    ((loadConfig setting.yaml disk p).mapError .configFile).andThen fun config =>
      .quiet (.ok (.given config))

/-- Lints what is at the end of a path without links. -/
def lintRoot (setting : Setting) (disk : Disk) (root : FilePath) (settings : LintSettings)
    (limits : Limits := .unlimited) : Outcome :=
  let stamp := if settings.deterministic then none else some setting.stamp
  let run := (configSource setting disk settings).andThen fun source =>
    lintProject setting.grammar setting.yaml setting.environment disk root source none none stamp
      limits
  let ending : Outcome := match run.outcome with
    | .ok (r, disk) => conclude disk root settings r
    | .error e =>
      if isRefusal e then refuse disk .failure ("error: " ++ e.message)
      else ⟨[], disk, .error (.project e)⟩
  ending.after (shownNotes settings.verbose run.notes)

def lintPath (setting : Setting) (disk : Disk) (path : FilePath) (settings : LintSettings)
    (limits : Limits := .unlimited) : Outcome :=
  if wantsDeterministic setting.environment ∧ !settings.deterministic then
    refuse disk .failure <|
      "error: CI environment requires deterministic mode for lint. " ++
        "Re-run with --ci/--deterministic."
  else match disk.resolve path with
    | .error e => ⟨[], disk, .error (.linkLoop e)⟩
    | .ok root =>
      if disk.hasEntry root then lintRoot setting disk root settings limits
      else refuse disk .failure s!"error: path does not exist: {root}"

def listRules (disk : Disk) (json : Bool) : Outcome :=
  let text :=
    if json then
      Json.canonical (some Json.usualIndent) (.list (Rule.infos.map Rule.Info.toValue))
    else String.join (Rule.infos.map ruleLine)
  ⟨[.answer text], disk, .ok .success⟩

def validateFile (disk : Disk) (document : FilePath) (schema : String) : Outcome :=
  match readDocument disk document >>= checkValue schema with
  | .ok _ => ⟨[.answer "OK\n"], disk, .ok .success⟩
  | .error (.rejected (.violation e)) => refuse disk .violation ("FAIL: " ++ e.message)
  | .error e => refuse disk .failure ("ERROR: " ++ e.message)

/-- How a form is used, in one line. -/
def usage (form : Form) : String :=
  let switches := form.switches.map fun s => s!"[{s.name}]"
  " ".intercalate ("usage:" :: form.program :: switches ++ form.slots.map Slot.name) ++ "\n"

def Request.run (setting : Setting) (disk : Disk) (request : Request)
    (limits : Limits := .unlimited) : Outcome :=
  match request with
  | .help form => ⟨[.answer (usage form)], disk, .ok .success⟩
  | .version => ⟨[.answer s!"{programName} {Result.toolVersion}\n"], disk, .ok .success⟩
  | .misuse program fault => refuse disk .failure s!"{program}: error: {fault.message}"
  | .nothing => refuse disk .failure "error: please provide a path or use a subcommand."
  | .lint path settings => lintPath setting disk path settings limits
  | .rules json => listRules disk json
  | .validate document schema => validateFile disk document schema

end QueryLint.Command
