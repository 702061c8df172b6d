import QueryLint.Code.Source
import QueryLint.Query.Name

/-!
# Queries inside a wait

A function that calls a query until it succeeds does the work of the query's waiting variant.
Only the plain form counts: the call that waits has one argument, an arrow function without
parameters whose body is the call of a query that answers at once.
-/
namespace QueryLint.Query

open QueryLint.Code

/-- The query that is waited for. -/
structure WaitedQuery where
  /-- The name of the query. -/
  method : String
  /-- The name of the object the query is a member of, if it is one. -/
  caller : Option String
  arguments : List Place

variable (source : Source)

/-- The query that a call expression calls, if it answers at once. -/
def syncQuery? (call : Place) : Option WaitedQuery := do
  let callee ← call.callee?
  let (method, caller) ←
    if callee.isMember then do
      let object ← callee.object?
      let caller ← source.nameOf? object
      let method ← source.propertyName? callee
      pure (method, some caller)
    else do
      let method ← source.nameOf? callee
      pure (method, none)
  if isSync method then some ⟨method, caller, call.callArguments⟩ else none

/-- The query that a call waits for, if it is of the plain form. -/
def waitedQuery? (wait : Place) : Option WaitedQuery := do
  let name ← wait.callee?.bind source.nameOf?
  if waitNames.contains name then
    match wait.callArguments with
    | [argument] => do
      let callback ← argument.unwrap
      if callback.isArrow && callback.parameters.isEmpty then
        let call ← callback.body?.bind (·.unwrap)
        if call.isCall then syncQuery? source call else none
      else none
    | _ => none
  else none

namespace WaitedQuery

/-- The variant to use in place of the wait. -/
def variant (query : WaitedQuery) : String := waitingVariant query.method

/-- The source of the call to use in place of the wait, with the arguments as they are written.
None if the name of the query has no accessor. -/
def replacement (query : WaitedQuery) : Option String :=
  (accessor? query.method).map fun accessor =>
    let arguments := ", ".intercalate (query.arguments.map source.textOf)
    let call := query.variant ++ accessor ++ "(" ++ arguments ++ ")"
    match query.caller with
    | some caller => caller ++ "." ++ call
    | none => call

end WaitedQuery

end QueryLint.Query
