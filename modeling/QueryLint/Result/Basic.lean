import QueryLint.Finding.Basic
import QueryLint.Schema.LintResult

/-!
# Results

The result of linting some files: all findings, the files that could not be linted, and how many
there are of each sort.
-/
namespace QueryLint.Result

open QueryLint.Data

def toolVersion : String := "0.1.0"

/-- The version of what finds the findings. -/
def engineVersion : String := "engine_v1"

/-- A file that could not be linted. -/
structure FileError where
  path : String
  /-- What went wrong: reading the file, parsing it, or running a rule on it. -/
  kind : String
  message : String
  /-- The line where it went wrong, zero if that is no line. -/
  line : Int
  deriving DecidableEq, Repr

/-- The kind of error of a file that cannot be read. -/
def readError : String := "read_error"

/-- The kind of error of a file with syntax errors. -/
def parseError : String := "parse_error"

/-- The kind of error of a file that a rule fails on. -/
def ruleError : String := "rule_error"

def FileError.toValue (e : FileError) : Value :=
  .object
    [("path", .text e.path), ("kind", .text e.kind), ("message", .text e.message),
     ("line", .int e.line)]

/-- Counts with one more for a text. A text that is new comes last. -/
def increment (counts : List (String × Nat)) (s : String) : List (String × Nat) :=
  match counts with
  | [] => [(s, 1)]
  | (t, n) :: rest => if t = s then (t, n + 1) :: rest else (t, n) :: increment rest s

/-- How often each of some texts occurs, counted one after the other. -/
def tally (items : List String) : List (String × Nat) := items.foldl increment []

end Result

/-- The result of linting some files. -/
structure LintResult where
  runId : String
  createdAt : String
  toolVersion : String
  engineVersion : String
  /-- What was asked for. -/
  config : Data.Members
  filesScanned : Int
  findings : List Finding
  errors : List Result.FileError

namespace LintResult

open QueryLint.Data QueryLint.Result
open QueryLint.Finding (Severity)

def countOf (r : LintResult) (severity : Severity) : Nat :=
  r.findings.countP (·.severity = severity)

def errorCount (r : LintResult) : Nat := r.countOf .error

def warningCount (r : LintResult) : Nat := r.countOf .warn

/-- The number of findings of each severity that occurs. -/
def bySeverity (r : LintResult) : List (String × Nat) :=
  tally (r.findings.map (·.severity.name))

def byRule (r : LintResult) : List (String × Nat) := tally (r.findings.map (·.ruleId))

def filesWithErrors (r : LintResult) : Nat := (r.errors.map (·.path)).eraseDups.length

def countsValue (counts : List (String × Nat)) : Value :=
  .object (counts.map fun c => (c.1, .nat c.2))

def toValue (r : LintResult) : Value :=
  .object
    [("schema_version", .text Schema.formatName),
     ("run", .object
      [("run_id", .text r.runId), ("created_at", .text r.createdAt),
       ("tool_version", .text r.toolVersion), ("engine_version", .text r.engineVersion),
       ("config", .object r.config)]),
     ("summary", .object
      [("files_scanned", .int r.filesScanned), ("files_with_errors", .nat r.filesWithErrors),
       ("counts", .object
        [("findings_total", .nat r.findings.length), ("by_severity", countsValue r.bySeverity),
         ("by_rule", countsValue r.byRule)])]),
     ("findings", .list (r.findings.map Finding.toValue)),
     ("errors", .list (r.errors.map FileError.toValue))]

end LintResult

namespace Result

/-- How a command ends. -/
inductive ExitCode where
  /-- There is nothing to complain of. -/
  | success
  /-- There are errors, or more warnings than allowed. -/
  | violation
  /-- The command could not be carried out. -/
  | failure
  deriving DecidableEq, Repr

def ExitCode.toNat : ExitCode → Nat
  | success => 0
  | violation => 1
  | failure => 2

/-- How a lint command ends, and what it says when there are too many warnings. A negative limit
is no limit. -/
def verdict (r : LintResult) (maxWarnings : Option Int) : ExitCode × Option String :=
  if r.errorCount ≠ 0 then (.violation, none)
  else match maxWarnings with
    | none => (.success, none)
    | some limit =>
      if 0 ≤ limit ∧ limit < r.warningCount then
        (.violation, some s!"error: {r.warningCount} warning(s) exceed --max-warnings {limit}")
      else (.success, none)

end Result

end QueryLint
