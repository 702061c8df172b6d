import QueryLint.Binding.Scope

/-!
# Variables and their uses

The variables that a declarator declares, each with the places that use it. A use is a name with
the variable's text, after its declaration and inside its scope, that no scope in between declares
anew. Names of elements are no uses. This is a matter of names alone: what a variable holds, and
whether another one holds the same, is not followed.
-/
namespace QueryLint.Binding

open QueryLint.Code

/-- A use of a variable. -/
structure Use where
  place : Place
  /-- Whether the variable is assigned to. -/
  isWrite : Bool

/-- A variable that a declarator declares. -/
structure Variable where
  name : String
  /-- The scope it belongs to. -/
  scope : Place
  /-- Where its name is bound. -/
  binding : Place
  /-- Its uses in source order. -/
  uses : List Use

def useKinds : List Kind := [Kind.identifier, Kind.shorthandProperty]

/-- The kinds of element markup that hold an element's name. -/
def elementKinds : List Kind :=
  ["jsx_opening_element", "jsx_closing_element", "jsx_self_closing_element"]

/-- The kinds of node that join the parts of an element's name. -/
def elementNameKinds : List Kind :=
  [Kind.memberExpression, "nested_identifier", "jsx_namespace_name"]

def writeKinds : List Kind :=
  ["assignment_expression", "augmented_assignment_expression", "update_expression"]

/-- Whether a name is the name of an element, or part of one. -/
def isElementName (p : Place) : Bool :=
  match p.ancestors.dropWhile fun a => elementNameKinds.contains a.kind with
  | a :: _ => elementKinds.contains a.kind
  | [] => false

/-- Whether a name is what its parent assigns to. -/
def isWrite (p : Place) : Bool :=
  match p.parent? with
  | some parent =>
    writeKinds.contains parent.kind &&
      match (parent.childAs .left).or (parent.childAs .argument) with
      | some target => target.index? == p.index?
      | none => false
  | none => false

/-- What tells scopes apart: their range and their kind. -/
structure ScopeKey where
  start : Nat
  stop : Nat
  kind : Kind
  deriving DecidableEq

def scopeKey (p : Place) : ScopeKey := ⟨p.start, p.stop, p.kind⟩

variable (source : Source)

/-- Whether a scope declares a name anew. One that encloses the declarator never does, even if the
declaration belongs to it. -/
def shadows (name : String) (enclosing : List ScopeKey) (p : Place) : Bool :=
  isScope p && !enclosing.contains (scopeKey p) && (declaredNames source p).contains name

/-- Whether a scope declares a name anew, if there is room for the calls that tell. -/
def shadowsWithin (room : Option Nat) (name : String) (enclosing : List ScopeKey) (p : Place) :
    Except TooDeep Bool :=
  if isScope p && !enclosing.contains (scopeKey p) then
    (declaredNamesWithin source room p).map (·.contains name)
  else .ok false

/-- What the search for the uses of a name does at a place, which may declare the name anew. -/
def useVerdict (name : String) (p : Place) (shadowing : Bool) : Place.Verdict :=
  if shadowing then .skip
  else if useKinds.contains p.kind && source.textOf p == name then
    if isElementName p then .skip else .take
  else .below

/-- The names in a scope that use what a declarator declares under a name, in source order. -/
def usesIn (scope : Place) (name : String) (declarator : Place) : List Place :=
  let enclosing := declarator.ancestors.map scopeKey
  Id.run <| Place.searchOn (fun p => pure (useVerdict source name p (shadows source name enclosing p)))
    (push [] scope.children.reverse)

/-- The same, if there is room for the calls that take the patterns of the scopes in between apart. -/
def usesWithin (room : Option Nat) (scope : Place) (name : String) (declarator : Place) :
    Except TooDeep (List Place) :=
  let enclosing := declarator.ancestors.map scopeKey
  Place.searchOn
    (fun p => (shadowsWithin source room name enclosing p).map (useVerdict source name p))
    (push [] scope.children.reverse)

/-- The variable that is declared by binding a name in a scope, where some places use the name. -/
def variableOver (scope binding : Place) (found : List Place) : Variable where
  name := source.textOf binding
  scope := scope
  binding := binding
  uses := (found.filter (binding.stop ≤ ·.start)).map fun p => ⟨p, isWrite p⟩

/-- The variable that a declarator declares by binding a name in a scope. -/
def variableOf (declarator scope binding : Place) : Variable :=
  variableOver source scope binding (usesIn source scope (source.textOf binding) declarator)

/-- The variables that a declarator declares. Any other node declares none. -/
def declaredVariables (declarator : Place) : List Variable :=
  if declarator.isDeclarator then
    match declaringScope? declarator with
    | some scope =>
      (boundNames? (declarator.childAs .name)).map (variableOf source declarator scope)
    | none => []
  else []

/-- The variables that a declarator declares, if there is room for the calls that find them. -/
def declaredVariablesWithin (room : Option Nat) (declarator : Place) :
    Except TooDeep (List Variable) :=
  if declarator.isDeclarator then
    match declaringScope? declarator with
    | some scope => do
      let bindings ← boundWithin room (declarator.childAs .name)
      bindings.mapM fun binding =>
        (usesWithin source room scope (source.textOf binding) declarator).map
          (variableOver source scope binding)
    | none => .ok []
  else .ok []

end QueryLint.Binding
