import QueryLint.Result.Basic
import QueryLint.Rule.Registry
import QueryLint.Text.Order

/-!
# Listings

What a person reads: the findings of each file under its path, the files that were skipped, how
many problems there are, and the rules that there are.
-/
namespace QueryLint.Command

open QueryLint.Text
open QueryLint.Finding (Severity)

/-- A text with blanks after it to a width. -/
def padRight (width : Nat) (s : String) : String :=
  s ++ String.ofList (List.replicate (width - s.length) ' ')

/-- A text with blanks before it to a width. -/
def padLeft (width : Nat) (s : String) : String :=
  String.ofList (List.replicate (width - s.length) ' ') ++ s

def findingLine (f : Finding) : String :=
  let place := s!"{f.location.lineStart}:{f.location.columnStart}"
  s!"  {padLeft 8 place}  {padRight 5 f.severity.name}  {f.message}  {f.ruleId}\n"

def fileListing (findings : List Finding) (path : String) : String :=
  s!"\n{path}\n" ++
    String.join ((findings.filter (·.location.path = path)).map findingLine)

/-- A file that was skipped, with the line where it went wrong if there is one. -/
def skippedListing (e : Result.FileError) : String :=
  let place := if e.line = 0 then e.path else s!"{e.path}:{e.line}"
  s!"\n{place}\n  skipped ({e.kind}): {e.message}\n"

def summaryLine (r : LintResult) : String :=
  s!"\n  {r.findings.length} problem(s) ({r.errorCount} error(s), {r.warningCount} warning(s)) " ++
    s!"in {r.filesScanned} file(s)\n\n"

def listing (r : LintResult) : String :=
  String.join ((sortedSet (r.findings.map (·.location.path))).map (fileListing r.findings)) ++
    String.join (r.errors.map skippedListing) ++ summaryLine r

def ruleLine (info : Rule.Info) : String :=
  s!"{padRight 20 info.id} {padRight 5 info.recommended.name} {padRight 10 info.type.name} " ++
    s!"{info.description}\n"

end QueryLint.Command
