import QueryLint.Query.Handling
import QueryLint.Query.Name

/-!
# Calls of queries that answer with a promise
-/
namespace QueryLint.Query

open QueryLint.Code

/-- A call of such a query, by its name alone or as a member of an object. -/
structure CallSite where
  /-- The name of the query. -/
  identifier : Place
  /-- What is called. -/
  callee : Place
  call : Place

variable (source : Source)

/-- The name that is called: the callee itself, or the member that it takes. -/
def calledName? (callee : Place) : Option Place :=
  if callee.isIdentifier then some callee else callee.property?

/-- The call site at a place, if it is one. -/
def callSite? (call : Place) : Option CallSite := do
  let callee ← call.callee?
  let identifier ← calledName? callee
  let name ← source.nameOf? identifier
  if isAsync name then some ⟨identifier, callee, call⟩ else none

namespace CallSite

def name (site : CallSite) : String := (source.nameOf? site.identifier).getD ""

/-- The declarator whose variables hold what the call gives, if there is one. -/
def declarator? (site : CallSite) : Option Place := site.call.owner?.filter (·.isDeclarator)

/-- Whether the promise is handled where the call stands. -/
def isHandledInPlace (site : CallSite) : Bool :=
  isAwaited site.call || isContinued source site.callee

end CallSite

end QueryLint.Query
