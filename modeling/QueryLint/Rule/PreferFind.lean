import QueryLint.Query.WaitedQuery
import QueryLint.Rule.Basic

/-!
# Waiting variants instead of waits

The rule looks at each awaited call that waits for a query which answers at once, and suggests
the call of the query's waiting variant in its place.
-/
namespace QueryLint.Rule.PreferFind

open QueryLint.Code QueryLint.Query

def info : Info where
  id := "prefer-find-by"
  type := .suggestion
  description := "Suggest using find* instead of waitFor to wait for elements"
  category := .bestPractices
  recommended := .warn
  messages :=
    [("preferFindBy", "Prefer \x7b\x7bqueryVariant\x7d\x7d\x7b\x7bqueryMethod\x7d\x7d method " ++
      "over using await \x7b\x7bfullQuery\x7d\x7d")]
  fixable := none
  hasSuggestions := true

def messageId : String := "preferFindBy"

variable (source : Source)

/-- The query that an awaited call waits for. -/
def awaitedWait? (p : Place) : Option WaitedQuery :=
  if p.owner?.any (·.isAwait) then waitedQuery? source p else none

/-- What is reported of a call that waits for a query. None if the query has no accessor. -/
def violation? (p : Place) (query : WaitedQuery) : Option Violation := do
  let text ← query.replacement source
  let accessor ← accessor? query.method
  return {
    place := p
    messageId := messageId
    data :=
      [("queryVariant", .text query.variant), ("queryMethod", .text accessor),
       ("fullQuery", .text (source.textOf p))]
    proposals := [⟨messageId, .node p text, []⟩] }

def onCall : Listener := fun _ source occasion notes =>
  match occasion with
  | .visit p =>
    match awaitedWait? source p with
    | some query =>
      match violation? source p query with
      | some v => notes.report info source v
      | none => .error (.noAccessor query.method)
    | none => .ok notes
  | .finish => .ok notes

def rule : Rule where
  info := info
  version := "1.0.0"
  listeners := [(Kind.callExpression, onCall)]

end QueryLint.Rule.PreferFind
