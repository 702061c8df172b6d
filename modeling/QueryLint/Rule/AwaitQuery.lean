import QueryLint.Binding.Variable
import QueryLint.Rule.Basic

/-!
# Promises of queries must be handled

The rule looks at each call of a query that answers with a promise. A call that is handled where
it stands is fine. Any other is decided on at the end of the walk: if the promise is kept in a
variable that is used, each use has to handle it, and in all other cases the call is reported.
-/
namespace QueryLint.Rule.AwaitQuery

open QueryLint.Binding QueryLint.Code QueryLint.Query

def info : Info where
  id := "await-async-query"
  type := .problem
  description := "Enforce async queries to have proper `await`"
  category := .bestPractices
  recommended := .warn
  messages := [("awaitAsyncQuery", "`\x7b\x7b name \x7d\x7d` must have `await` operator")]
  fixable := none
  hasSuggestions := false

def messageId : String := "awaitAsyncQuery"

variable (source : Source)

/-- Whether a promise is handled where a variable that holds it is used. -/
def isUseHandled (use : Use) : Bool := isAwaited use.place || isContinued source use.place

/-- Whether a promise that is kept in some variables is left unhandled: the first of them is never
used, or some use does not handle it. -/
def isLeftUnhandled (kept : List Variable) : Bool :=
  match kept with
  | [] => true
  | v :: _ => v.uses.isEmpty || v.uses.any (!isUseHandled source ·)

/-- Whether a call has to be decided on at the end of the walk. -/
def isSuspect (site : CallSite) : Bool :=
  !(site.isHandledInPlace source || isOutcomeExpected source site.call)

/-- Whether a call is unhandled, if there is room for the calls that find the variables it is kept
in. -/
def isUnhandledWithin (room : Option Nat) (site : CallSite) : Except TooDeep Bool :=
  match site.declarator? with
  | some declarator =>
    (declaredVariablesWithin source room declarator).map (isLeftUnhandled source)
  | none => .ok true

def violation (site : CallSite) : Violation where
  place := site.identifier
  messageId := messageId
  data := [("name", .text (site.name source))]
  proposals := []

/-- Notes suspect calls. -/
def onCall : Listener := fun _ source occasion notes =>
  match occasion with
  | .visit p =>
    match callSite? source p with
    | some site =>
      .ok (if isSuspect source site then { notes with suspects := notes.suspects.add site }
        else notes)
    | none => .ok notes
  | .finish => .ok notes

/-- Reports a call if it is unhandled. -/
def decideOn (room : Option Nat) (notes : Notes) (site : CallSite) : Except Failure Notes := do
  if ← (isUnhandledWithin source room site).mapError .tooDeep then
    notes.report info source (violation source site)
  else return notes

/-- Decides on the suspect calls. -/
def onExit : Listener := fun limits source _ notes =>
  let (sites, rest) := notes.suspects.drain
  sites.foldlM (decideOn source limits.depth) { notes with suspects := rest }

def rule : Rule where
  info := info
  version := "1.0.0"
  listeners := [(Kind.callExpression, onCall), (programExit, onExit)]

end QueryLint.Rule.AwaitQuery
