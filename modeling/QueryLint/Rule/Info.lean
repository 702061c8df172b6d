import QueryLint.Data.Value
import QueryLint.Finding.Severity

/-!
# Descriptions of rules
-/
namespace QueryLint.Rule

open QueryLint.Data QueryLint.Finding

/-- The sections that rules are documented in. -/
inductive Category where
  | bestPractices
  | possibleErrors
  deriving DecidableEq, Repr

def Category.name : Category → String
  | bestPractices => "Best Practices"
  | possibleErrors => "Possible Errors"

/-- What is known of a rule before it runs. -/
structure Info where
  id : String
  type : RuleType
  description : String
  category : Category
  /-- The severity of the rule unless a configuration says otherwise. -/
  recommended : Severity
  /-- The templates of its messages by their ids. -/
  messages : List (String × String)
  /-- How the rule changes code on its own, if it does. -/
  fixable : Option String
  /-- Whether its findings suggest replacements. -/
  hasSuggestions : Bool

namespace Info

def docsUrl (info : Info) : String :=
  "https://github.com/testing-library/eslint-plugin-testing-library/tree/master/docs/rules/" ++
    info.id ++ ".md"

def toMembers (info : Info) : Members :=
  [("rule_id", .text info.id), ("type", .text info.type.name),
   ("description", .text info.description), ("category", .text info.category.name),
   ("recommended", .text info.recommended.name),
   ("messages", .object (info.messages.map fun m => (m.1, .text m.2))),
   ("fixable", (info.fixable.map Value.text).getD .null),
   ("has_suggestions", .bool info.hasSuggestions), ("docs_url", .text info.docsUrl)]

def toValue (info : Info) : Value := .object info.toMembers

end Info

end QueryLint.Rule
