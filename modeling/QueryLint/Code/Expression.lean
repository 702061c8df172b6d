import QueryLint.Code.Place

/-!
# Expressions

The shapes of expressions that rules look for. Parentheses and argument lists are nodes of the
tree but not of the expression: `owner?` goes up past both, and `unwrap` goes down through
parentheses. The two are inverse: what `callee?`, `callArguments`, `object?`, `body?` and
`operand?` find going down is owned by the place they started from.
-/
namespace QueryLint.Code

def identifierKinds : List Kind :=
  [Kind.identifier, Kind.propertyIdentifier, Kind.shorthandProperty]

/-- The kinds of node that stand between an expression and what it is part of. -/
def transparentKinds : List Kind := [Kind.parenthesized, Kind.arguments]

namespace Place

def isCall (p : Place) : Bool := p.kind == Kind.callExpression

def isMember (p : Place) : Bool := p.kind == Kind.memberExpression

def isAwait (p : Place) : Bool := p.kind == Kind.awaitExpression

def isArrow (p : Place) : Bool := p.kind == Kind.arrowFunction

def isDeclarator (p : Place) : Bool := p.kind == Kind.variableDeclarator

def isIdentifier (p : Place) : Bool := identifierKinds.contains p.kind

/-- The places above that are neither parentheses nor an argument list, nearest first. -/
def owners : Place → List Place
  | root _ => []
  | child p _ _ => if transparentKinds.contains p.kind then p.owners else p :: p.owners

/-- The nearest place above that is neither parentheses nor an argument list. -/
def owner? (p : Place) : Option Place := p.owners.head?

mutual

/-- The expression at `here`, whose node is the last argument, inside any parentheses. -/
def unwrapNode (here : Place) : Node → Option Place
  | .mk l cs => if l.kind = Kind.parenthesized then unwrapFirst here 0 cs else some here

/-- The expression inside the first part among some children of `parent`, the first of them at
position `i`. -/
def unwrapFirst (parent : Place) (i : Nat) : List Node → Option Place
  | [] => none
  | n :: ns =>
    if n.label.isNamed && n.kind ≠ Kind.comment then unwrapNode (.child parent i n) n
    else unwrapFirst parent (i + 1) ns

end

/-- The expression inside any parentheses, none if they hold no expression. -/
def unwrap (p : Place) : Option Place := unwrapNode p p.node

theorem unwrapFirst_eq (parent : Place) (i : Nat) (ns : List Node) :
    unwrapFirst parent i ns =
      (((parent.childrenFrom i ns).filter (·.label.isNamed)).filter
        (·.kind ≠ Kind.comment)).head?.bind unwrap := by
  induction ns generalizing i with
  | nil => rfl
  | cons n ns ih =>
    by_cases hn : n.label.isNamed = true <;> by_cases hk : n.kind = Kind.comment <;>
      simp_all [unwrapFirst, childrenFrom, label, node, Place.kind, Node.kind, unwrap]

/-- Parentheses give way to the expression inside them; any other place is its own expression. -/
theorem unwrap_eq (p : Place) :
    p.unwrap =
      if p.kind = Kind.parenthesized then p.parts.head?.bind unwrap else some p := by
  rcases hp : p.node with ⟨l, cs⟩
  have hk : p.kind = l.kind := by simp [Place.kind, label, hp, Node.label]
  rw [unwrap, hp, unwrapNode, hk, unwrapFirst_eq]
  simp only [parts, namedChildren, children, hp, Node.children]

def callee? (p : Place) : Option Place :=
  if p.isCall then (p.childAs .function).bind unwrap else none

/-- The arguments of a call expression. A call with a template in place of an argument list has
none. -/
def callArguments (p : Place) : List Place :=
  if p.isCall then
    match p.childAs .arguments with
    | some list => if list.kind = Kind.arguments then list.parts else []
    | none => []
  else []

/-- What a member expression takes a member of. -/
def object? (p : Place) : Option Place :=
  if p.isMember then (p.childAs .object).bind unwrap else none

def property? (p : Place) : Option Place :=
  if p.isMember then p.childAs .property else none

/-- The parameters of an arrow function, with or without parentheses. -/
def parameters (p : Place) : List Place :=
  if p.isArrow then
    match p.childAs .parameter, p.childAs .parameters with
    | some single, _ => [single]
    | none, some list => list.parts
    | none, none => []
  else []

def body? (p : Place) : Option Place :=
  if p.isArrow then p.childAs .body else none

/-- What an await expression waits for. -/
def operand? (p : Place) : Option Place :=
  if p.isAwait then p.parts.head?.bind unwrap else none

end Place

end QueryLint.Code
