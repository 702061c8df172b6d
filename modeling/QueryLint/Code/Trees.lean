import QueryLint.Code.Rows
import QueryLint.Code.Source
import QueryLint.Data.Value

/-!
# Trees as data

Grammars run elsewhere and hand their trees over as data: a list of objects, each with a language, a
source text and the rows of its tree. A row lists the depth, the kind, the first byte, the byte
after the last, and, where there is more to tell, flags and the role. The flags are a sum: one for a
named node, two for an error at or below it, four for a node that is missing from the text.
-/
namespace QueryLint.Code

open QueryLint.Data

def Row.ofList (items : List Value) : Row :=
  let item (i : Nat) : Value := items.getD i .null
  let flags := (item 4).asNat
  { depth := (item 0).asNat
    label :=
      { kind := (item 1).asText
        start := (item 2).asNat
        stop := (item 3).asNat
        isNamed := flags % 2 = 1
        hasError := flags / 2 % 2 = 1
        isMissing := flags / 4 % 2 = 1
        role := Role.ofName? ((item 5).asText) } }

/-- The tree of an empty text. -/
def emptyTree : Node := .mk ⟨Kind.program, 0, 0, true, false, false, none⟩ []

def treeOf (rows : Value) : Node :=
  (Node.ofRows? (rows.asList.map fun row => Row.ofList row.asList)).getD emptyTree

/-- The grammar that knows the trees in a list, and takes all other texts to be empty. -/
def Grammar.ofValue (trees : Value) : Grammar :=
  let table := trees.asList.map fun entry =>
    let member (key : String) : Value := (entry.get? key).getD .null
    (((member "language").asText, (member "source").asText), treeOf (member "nodes"))
  fun language text => (table.lookup (language.name, text)).getD emptyTree

end QueryLint.Code
