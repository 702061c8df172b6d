import QueryLint.Code.Place
import QueryLint.Limits

/-!
# Binding patterns

The target of a declaration or a parameter is a name, or a pattern that takes a value apart and
binds names inside it. Default values, type annotations and the keys of a pattern bind nothing.

A pattern is taken apart by calls inside each other, one for each pattern on the way down and one for a
part that is not there. `boundNames` is what a pattern binds, and `boundWithin` finds it with room for so
many calls.
-/
namespace QueryLint.Binding

open QueryLint.Code

/-- Where a pattern binds names. -/
inductive Shape where
  /-- The pattern is itself the bound name. -/
  | name
  /-- In the child that plays a part. -/
  | inRole (role : Role)
  /-- In all its parts. -/
  | inParts
  /-- Nowhere. -/
  | nowhere
  deriving DecidableEq, Repr

def shape (k : Kind) : Shape :=
  if ["identifier", "shorthand_property_identifier_pattern"].contains k then .name
  else if ["assignment_pattern", "object_assignment_pattern"].contains k then .inRole .left
  else if k = "pair_pattern" then .inRole .value
  else if ["required_parameter", "optional_parameter"].contains k then .inRole .pattern
  else if ["object_pattern", "array_pattern", "rest_pattern", Kind.formalParameters].contains k then
    .inParts
  else .nowhere

mutual

/-- The names bound by the pattern at `here`, whose node is the last argument. -/
def boundNode (here : Place) : Node → List Place
  | .mk l cs =>
    match shape l.kind with
    | .name => [here]
    | .inRole role => boundInRole role here 0 cs
    | .inParts => boundInParts here 0 cs
    | .nowhere => []

/-- The names bound in the first of some children of a pattern that plays a part. The children start
at position `i`. -/
def boundInRole (role : Role) (pattern : Place) (i : Nat) : List Node → List Place
  | [] => []
  | n :: ns =>
    if n.label.role = some role then boundNode (.child pattern i n) n
    else boundInRole role pattern (i + 1) ns

/-- The names bound in the parts among some children of a pattern, the first of them at position
`i`. -/
def boundInParts (pattern : Place) (i : Nat) : List Node → List Place
  | [] => []
  | n :: ns =>
    (if n.label.isNamed ∧ n.kind ≠ Kind.comment then boundNode (.child pattern i n) n else []) ++
      boundInParts pattern (i + 1) ns

end

/-- The names that a pattern binds, in source order. -/
def boundNames (pattern : Place) : List Place := boundNode pattern pattern.node

/-- The names that a pattern binds, none without a pattern. -/
def boundNames? (pattern : Option Place) : List Place := pattern.elim [] boundNames

mutual

/-- The names bound by the pattern at `here`, whose node is the last argument. -/
def boundNodeWithin (room : Option Nat) (here : Place) : Node → Except TooDeep (List Place)
  | .mk l cs => do
    let room ← enter room
    match shape l.kind with
    | .name => return [here]
    | .inRole role => boundInRoleWithin role room here 0 cs
    | .inParts => boundInPartsWithin room here 0 cs
    | .nowhere => return []

/-- The names bound in the first of some children of a pattern that plays a part. -/
def boundInRoleWithin (role : Role) (room : Option Nat) (pattern : Place) (i : Nat) :
    List Node → Except TooDeep (List Place)
  | [] => (enter room).map fun _ => []
  | n :: ns =>
    if n.label.role = some role then boundNodeWithin room (.child pattern i n) n
    else boundInRoleWithin role room pattern (i + 1) ns

/-- The names bound in the parts among some children of a pattern. -/
def boundInPartsWithin (room : Option Nat) (pattern : Place) (i : Nat) :
    List Node → Except TooDeep (List Place)
  | [] => return []
  | n :: ns => do
    let found ←
      if n.label.isNamed ∧ n.kind ≠ Kind.comment then boundNodeWithin room (.child pattern i n) n
      else pure []
    return found ++ (← boundInPartsWithin room pattern (i + 1) ns)

end

/-- The names that a pattern binds, if there is room for the calls that find them. -/
def boundWithin (room : Option Nat) : Option Place → Except TooDeep (List Place)
  | none => (enter room).map fun _ => []
  | some pattern => boundNodeWithin room pattern pattern.node

end QueryLint.Binding
