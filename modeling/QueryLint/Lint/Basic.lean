import QueryLint.Lint.Config

/-!
# Linting a source

All rules that are wanted listen to one walk through the tree. What they report becomes findings
in the order of their places, and findings of one place in the order of the rules' ids.

A rule may come up against the limits of the run, and a source whose name is no UTF-8 has no findings, as
the name is part of what they are known by.
-/
namespace QueryLint.Lint

open QueryLint.Code QueryLint.Rule QueryLint.Text
open QueryLint.Finding (Severity)

/-- Why a source cannot be linted. -/
inductive LintError where
  | unknownRule (id : String)
  | failure (what : Failure)
  /-- The name of the source is no UTF-8, and there is a finding to be known by it. -/
  | stray (what : StrayBytes)
  deriving DecidableEq, Repr

def LintError.message : LintError → String
  | .unknownRule id => Rule.unknown id
  | .failure what => what.message
  | .stray what => what.message

/-- The wording of an error as it is noted down with a file. The wording for something that was
looked up in vain stands between quotes. -/
def LintError.noted : LintError → String
  | .unknownRule id => Text.quoted (Rule.unknown id)
  | .failure (.report (.noMessage ruleId messageId)) =>
    Text.quoted (ReportError.noMessage ruleId messageId).message
  | .failure what => what.message
  | .stray what => what.message

/-- A rule at a severity. -/
structure Chosen where
  rule : Rule
  severity : Severity

/-- The rules of a list of ids, each at its severity, without those that are off. Rules that are
asked for run at their recommended severity if the configuration has them off. -/
def chooseFrom (config : Config) (asked : Bool) : List String → Except LintError (List Chosen)
  | [] => .ok []
  | id :: ids => do
    match Rule.ofId? id with
    | none => throw (.unknownRule id)
    | some rule =>
      let given := config.severityFor id
      let severity := if given = .off ∧ asked then rule.info.recommended else given
      let rest ← chooseFrom config asked ids
      return if severity = .off then rest else ⟨rule, severity⟩ :: rest

/-- The rules to run: those that are asked for, or else those that the configuration enables. -/
def choose (config : Config) (rules : Option (List String)) : Except LintError (List Chosen) :=
  match rules with
  | some ids => chooseFrom config true ids
  | none => chooseFrom config false config.enabledRules

/-- The listeners of some rules, each with the position of its rule. -/
def listeners (chosen : List Chosen) : ListenerTable (Nat × Listener) :=
  .merge (chosen.zipIdx.map fun (c, i) => c.rule.listeners.map fun entry =>
    (entry.1, (i, entry.2)))

/-- Calls a listener on the notes of its rule. -/
def answer (limits : Limits) (source : Source) (notes : List Notes)
    (call : (Nat × Listener) × Occasion) : Except Failure (List Notes) :=
  match notes[call.1.1]? with
  | some own => (call.1.2 limits source call.2 own).map (notes.set call.1.1 ·)
  | none => .ok notes

/-- The notes of some rules after a walk through a source. -/
def walk (limits : Limits) (source : Source) (chosen : List Chosen) : Except Failure (List Notes) :=
  ((listeners chosen).calls source.tree).foldlM (answer limits source)
    (List.replicate chosen.length .empty)

/-- The findings that the notes of some rules come to, rule by rule. -/
def collect (source : Source) (chosen : List Chosen) (notes : List Notes) : List Finding :=
  (chosen.zip notes).flatMap fun (c, own) =>
    own.reports.map fun r => r.toFinding c.rule.info c.severity source

/-- Whether a finding comes before another: by line, then by column, then by rule. -/
def precedes (a b : Finding) : Bool :=
  let p := a.location
  let q := b.location
  p.lineStart < q.lineStart || p.lineStart == q.lineStart &&
    (p.columnStart < q.columnStart || p.columnStart == q.columnStart && textLe a.ruleId b.ruleId)

/-- A number with at least four digits. -/
def fourDigits (n : Nat) : String :=
  let ds := Nat.toDigits 10 n
  String.ofList (List.replicate (4 - ds.length) '0' ++ ds)

/-- The id of the finding at some position: eight digits of its fingerprint and the position. -/
def findingId (f : Finding) (position : Nat) : String :=
  let digits := (f.fingerprint.toList.drop 7).take 8
  "tl_" ++ String.ofList digits ++ "_" ++ fourDigits position

/-- Findings in order, with their ids. -/
def arrange (findings : List Finding) : List Finding :=
  (findings.mergeSort precedes).zipIdx.map fun (f, i) => { f with id := findingId f i }

/-- Findings in order, if the name of their source can be written as UTF-8. It is written for the
fingerprint of the first of them, behind the rule. -/
def settle (limits : Limits) (source : Source) (findings : List Finding) :
    Except LintError (List Finding) :=
  match findings.head?.bind fun f => limits.strayBytes? (f.ruleId.length + 1) source.path with
  | some what => .error (.stray what)
  | none => .ok (arrange findings)

/-- What a run of the rules over a source gives. -/
structure Linted where
  findings : Except LintError (List Finding)
  /-- The number of rules that ran. -/
  rules : Nat

def run (source : Source) (config : Config) (rules : Option (List String))
    (limits : Limits := .unlimited) : Except LintError Linted := do
  let chosen ← choose config rules
  match walk limits source chosen with
  | .ok notes => return ⟨settle limits source (collect source chosen notes), chosen.length⟩
  | .error what => throw (.failure what)

def lintSource (source : Source) (config : Config) (rules : Option (List String))
    (limits : Limits := .unlimited) : Except LintError (List Finding) := do
  let linted ← run source config rules limits
  linted.findings

end QueryLint.Lint
