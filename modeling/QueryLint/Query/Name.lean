import QueryLint.Text.Regex

/-!
# Names of queries

A query looks elements up, and its name says how: a variant such as `getBy` or `findAllBy`, then
an accessor such as `Text` or `Role`. The `get` and `query` variants answer at once; the `find`
variants wait for the elements and answer with a promise.
-/
namespace QueryLint.Query

open QueryLint.Text

/-- What elements can be looked up by. -/
def accessors : List String :=
  ["LabelText", "PlaceholderText", "Text", "AltText", "Title", "DisplayValue", "Role", "TestId"]

/-- The variants that answer at once. -/
def syncVariants : List String := ["getBy", "getAllBy", "queryBy", "queryAllBy"]

/-- The variants that answer with a promise. -/
def asyncVariants : List String := ["findBy", "findAllBy"]

/-- All names made of one of the variants and an accessor. -/
def combinations (variants : List String) : List String :=
  variants.flatMap fun v => accessors.map (v ++ ·)

/-- The functions that call a function again until it succeeds. -/
def waitNames : List String := ["waitFor", "waitForElement", "wait"]

/-- The form of the names of queries that answer with a promise: `find`, `All` or nothing, `By`, and an
accessor. -/
def asyncForm : Regex :=
  .inTurn (.literal "find") <| .inTurn (.optional (.literal "All")) <|
    .inTurn (.literal "By") (.oneOf accessors)

/-- Whether a name is of the form that queries have that answer with a promise. -/
def isAsync (name : String) : Bool := asyncForm.matchesWhole name

/-- Whether a name is that of a query that answers at once. -/
def isSync (name : String) : Bool := (combinations syncVariants).contains name

def mentionsAll : List Char → Bool
  | 'A' :: 'l' :: 'l' :: _ => true
  | _ :: rest => mentionsAll rest
  | [] => false

/-- The variant that waits for what a query looks up: many elements if its name says so, else
one. -/
def waitingVariant (name : String) : String :=
  if mentionsAll name.toList then "findAllBy" else "findBy"

def afterBy : List Char → Option (List Char)
  | 'B' :: 'y' :: rest => some rest
  | _ :: rest => afterBy rest
  | [] => none

/-- The accessor that a query's name ends in, none if the name has no `By`. -/
def accessor? (name : String) : Option String := (afterBy name.toList).map String.ofList

end QueryLint.Query
