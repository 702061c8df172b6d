import QueryLint.Binding.Pattern
import QueryLint.Code.Source

/-!
# Scopes

A scope is a node that keeps the names declared in it to itself. A variable declared by `var`
belongs to the nearest function or the program, any other to the nearest block of any sort.
-/
namespace QueryLint.Binding

open QueryLint.Code

/-- The kinds of node that are functions, and the program. -/
def functionScopes : List Kind :=
  [Kind.program, "function_declaration", "function_expression", "function", "generator_function",
   "generator_function_declaration", Kind.arrowFunction, "method_definition"]

def blockScopes : List Kind :=
  functionScopes ++
    [Kind.statementBlock, "for_statement", "for_in_statement", "catch_clause", "switch_body",
     "class_body"]

def declarationKinds : List Kind := [Kind.lexicalDeclaration, Kind.variableDeclaration]

/-- The kinds of statement that declare the name they have. -/
def namedDeclarationKinds : List Kind :=
  ["function_declaration", "generator_function_declaration", "class_declaration"]

/-- The kinds of function that know their own name. -/
def selfNamingKinds : List Kind := ["function_expression", "function", "generator_function"]

def isScope (p : Place) : Bool := blockScopes.contains p.kind

/-- Where a scope declares names. -/
inductive ScopeSort where
  /-- By its parameters, by its name if it knows it, and directly in its body. -/
  | function
  /-- At the head of a loop, by a declaration. -/
  | loop
  /-- At the head of a loop over items, by a pattern. -/
  | iteration
  /-- By what it catches. -/
  | handler
  /-- In its direct statements. -/
  | block
  deriving DecidableEq, Repr

def scopeSort (k : Kind) : ScopeSort :=
  if functionScopes.contains k ∧ k ≠ Kind.program then .function
  else if k = "for_statement" then .loop
  else if k = "for_in_statement" then .iteration
  else if k = "catch_clause" then .handler
  else .block

/-- The targets of the declarators in a declaration. -/
def declaratorPatterns (declaration : Place) : List (Option Place) :=
  (declaration.parts.filter (·.isDeclarator)).map (·.childAs .name)

/-- The targets of the declarations directly in a block. -/
def blockPatterns (block : Place) : List (Option Place) :=
  block.parts.flatMap fun statement =>
    if declarationKinds.contains statement.kind then declaratorPatterns statement else []

/-- The body of a function, if it is a block. -/
def bodyBlock? (p : Place) : Option Place :=
  (p.childAs .body).filter (·.kind = Kind.statementBlock)

/-- The patterns that bind what a scope declares. A part that is not there binds nothing. -/
def scopePatterns (p : Place) : List (Option Place) :=
  match scopeSort p.kind with
  | .function =>
    p.childAs .parameters :: p.childAs .parameter :: (bodyBlock? p).elim [] blockPatterns
  | .loop =>
    match p.childAs .initializer with
    | some start => if declarationKinds.contains start.kind then declaratorPatterns start else []
    | none => []
  | .iteration => if (p.childAs .kind).isSome then [p.childAs .left] else []
  | .handler => [p.childAs .parameter]
  | .block => blockPatterns p

variable (source : Source)

/-- The name of a node that has one, unless it is empty. -/
def ownName (p : Place) : List String :=
  match (p.childAs .name).bind source.nameOf? with
  | some "" => []
  | some name => [name]
  | none => []

/-- The names of the statements directly in a block that declare the name they have. -/
def statementNames (block : Place) : List String :=
  block.parts.flatMap fun statement =>
    if namedDeclarationKinds.contains statement.kind then ownName source statement else []

/-- What a scope declares other than by patterns. -/
def scopeNames (p : Place) : List String :=
  match scopeSort p.kind with
  | .function =>
    (if selfNamingKinds.contains p.kind then ownName source p else []) ++
      (bodyBlock? p).elim [] (statementNames source)
  | .block => statementNames source p
  | _ => []

/-- The names that a scope declares for what lies in it. -/
def declaredNames (p : Place) : List String :=
  ((scopePatterns p).flatMap boundNames?).map source.textOf ++ scopeNames source p

/-- The names that a scope declares, if there is room for the calls that take its patterns apart. -/
def declaredNamesWithin (room : Option Nat) (p : Place) : Except TooDeep (List String) := do
  let bound ← (scopePatterns p).mapM (boundWithin room)
  return bound.flatten.map source.textOf ++ scopeNames source p

/-- The scope that the variables of a declarator belong to. -/
def declaringScope? (declarator : Place) : Option Place :=
  declarator.parent?.bind fun declaration =>
    if declaration.kind = Kind.variableDeclaration then
      declaration.ancestors.find? fun p => functionScopes.contains p.kind
    else declaration.ancestors.find? isScope

end QueryLint.Binding
