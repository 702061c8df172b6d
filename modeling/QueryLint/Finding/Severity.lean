import QueryLint.Text.Quoted

/-!
# Severities and types of rules
-/
namespace QueryLint.Finding

open QueryLint.Text

/-- How serious the findings of a rule are. A rule that is off has none. -/
inductive Severity where
  | off
  | warn
  | error
  deriving DecidableEq, Repr

namespace Severity

/-- The severities from the least to the most serious. -/
def all : List Severity := [off, warn, error]

def name : Severity → String
  | off => "off"
  | warn => "warn"
  | error => "error"

def ofName? (s : String) : Option Severity := all.find? (·.name = s)

def unknown (s : String) : String := quoted s ++ " is not a valid Severity"

@[simp] theorem ofName?_name (s : Severity) : ofName? s.name = some s := by cases s <;> rfl

end Severity

/-- What a rule reports: something wrong, or something that could be better. -/
inductive RuleType where
  | problem
  | suggestion
  deriving DecidableEq, Repr

namespace RuleType

def all : List RuleType := [problem, suggestion]

def name : RuleType → String
  | problem => "problem"
  | suggestion => "suggestion"

def ofName? (s : String) : Option RuleType := all.find? (·.name = s)

def unknown (s : String) : String := quoted s ++ " is not a valid RuleType"

@[simp] theorem ofName?_name (t : RuleType) : ofName? t.name = some t := by cases t <;> rfl

end RuleType

end QueryLint.Finding
