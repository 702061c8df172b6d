import QueryLint.Lint.Basic

/-!
# Linting a text

A text that stands by itself is parsed first, and has to be free of syntax errors. Suggestions
can be applied to it: the first one of each finding that has any.
-/
namespace QueryLint.Lint

open QueryLint.Code QueryLint.Text
open QueryLint.Finding (Edit firstEdits)

/-- Why a text cannot be linted. -/
inductive TextError where
  | language (error : LanguageError)
  | syntaxError (path : String) (line : Nat)
  | lint (error : LintError)
  deriving DecidableEq, Repr

def TextError.message : TextError → String
  | .language error => error.message
  | .syntaxError path line => s!"{path}: syntax error near line {line}"
  | .lint error => error.message

/-- The name that a text goes by if it has none of its own. -/
def defaultFilename : String := "test.js"

variable (grammar : Grammar)

/-- The source of a text without syntax errors, in the language that its file name tells. -/
def parseClean (text filename : String) : Except TextError Source :=
  match Source.parse grammar text filename none with
  | .error e => .error (.language e)
  | .ok source =>
    if source.hasErrors then .error (.syntaxError filename source.firstErrorLine) else .ok source

def lintText (text filename : String) (config : Config) (rules : Option (List String))
    (limits : Limits := .unlimited) : Except TextError (List Finding) :=
  match parseClean grammar text filename with
  | .error e => .error e
  | .ok source =>
    match lintSource source config rules limits with
    | .ok findings => .ok findings
    | .error e => .error (.lint e)

/-- Why suggestions cannot be applied to a text. -/
inductive SuggestError where
  | text (error : TextError)
  /-- The bytes after the edits are no text. -/
  | undecodable (fault : Utf8.Fault)

/-- A text with the first suggestion of each of its findings applied, as far as they go
together. -/
def suggest (text filename : String) (rules : Option (List String))
    (limits : Limits := .unlimited) : Except SuggestError Edit.Outcome :=
  match lintText grammar text filename .default rules limits with
  | .error e => .error (.text e)
  | .ok findings =>
    match Edit.applyAll text (firstEdits findings) with
    | .ok outcome => .ok outcome
    | .error fault => .error (.undecodable fault)

end QueryLint.Lint
