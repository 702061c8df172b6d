import QueryLint.Code.Node

/-!
# Trees as rows

A tree written down as one row per node in pre-order, each row with the node's depth. The children
of a row are the rows one level deeper that follow it before the next row at its own level or
above.
-/
namespace QueryLint.Code

/-- A node and its depth below the root. -/
structure Row where
  depth : Nat
  label : Label

def Role.names : List (String × Role) :=
  [("argument", .argument), ("arguments", .arguments), ("body", .body), ("function", .function),
   ("initializer", .initializer), ("kind", .kind), ("left", .left), ("name", .name),
   ("object", .object), ("parameter", .parameter), ("parameters", .parameters),
   ("pattern", .pattern), ("property", .property), ("value", .value)]

def Role.ofName? (s : String) : Option Role := Role.names.lookup s

/-- The trees that some rows describe, each with the depth of its root. -/
def forest (rows : List Row) : List (Nat × Node) :=
  rows.foldr (fun row trees =>
    let below := trees.takeWhile (row.depth < ·.1)
    (row.depth, .mk row.label (below.map (·.2))) :: trees.drop below.length) []

/-- The tree that some rows describe, if they describe one. -/
def Node.ofRows? (rows : List Row) : Option Node :=
  match forest rows with
  | [(_, tree)] => some tree
  | _ => none

end QueryLint.Code
