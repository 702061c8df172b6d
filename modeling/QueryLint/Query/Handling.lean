import QueryLint.Code.Source

/-!
# Handled promises

A promise is handled where it is awaited, returned by a statement or as the body of an arrow
function, continued with `then`, or asserted on with `resolves` or `rejects` of an `expect`.
-/
namespace QueryLint.Query

open QueryLint.Code

/-- The kinds of node that hand a promise on or wait for it. -/
def handlingKinds : List Kind :=
  [Kind.awaitExpression, Kind.arrowFunction, Kind.returnStatement]

def expectName : String := "expect"

/-- The members of an assertion that wait for a promise. -/
def outcomeNames : List String := ["resolves", "rejects"]

/-- Whether a node handles a promise given to it. -/
def isHandling (p : Place) : Bool := handlingKinds.contains p.kind

/-- Whether what a place is part of handles it. -/
def isAwaited (p : Place) : Bool := p.owner?.any isHandling

variable (source : Source)

def takesThen (p : Place) : Bool := source.propertyName? p == some "then"

/-- Whether a promise is continued with `then`. It may be given as its expression or as the callee
of the call that makes it. -/
def isContinued (p : Place) : Bool :=
  p.owner?.any fun owner =>
    if owner.isCall then owner.owner?.any (takesThen source) else takesThen source owner

/-- Whether the nearest assertion around a place waits for a promise. The second argument lists
what the place is part of, nearest first. -/
def outcomeExpectedIn (p : Place) : List Place → Bool
  | [] => false
  | owner :: above =>
    if p.isCall && p.callee?.bind source.nameOf? == some expectName && owner.isMember then
      match source.propertyName? owner with
      | some name => outcomeNames.contains name
      | none => false
    else outcomeExpectedIn owner above

/-- Whether the nearest assertion around a place waits for a promise. -/
def isOutcomeExpected (p : Place) : Bool := outcomeExpectedIn source p p.owners

end QueryLint.Query
