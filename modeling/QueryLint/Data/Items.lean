import QueryLint.Data.Value

/-!
# Items of a value
-/
namespace QueryLint.Data

/-- A value that should have been a list. -/
structure NotIterable where
  typeName : String
  deriving DecidableEq, Repr

def NotIterable.message (e : NotIterable) : String := s!"'{e.typeName}' object is not iterable"

/-- The items of a value: of a list its items, of a text its characters, of an object its keys. -/
def Value.items : Value → Except NotIterable (List Value)
  | list vs => .ok vs
  | text s => .ok (s.toList.map fun c => .text (String.singleton c))
  | object members => .ok (members.map (.text ·.1))
  | v => .error ⟨v.typeName⟩

end QueryLint.Data
