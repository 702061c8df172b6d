import QueryLint.Data.Value
import QueryLint.Text.Quoted

/-!
# Values in messages

How a value is shown inside a message. Texts stand between quotes, lists between brackets and
objects between braces, with commas between their parts. A text by itself may also be shown bare.
-/
namespace QueryLint.Data.Value

open QueryLint.Text

mutual

/-- A value with texts between quotes. -/
def quoted : Value → String
  | null => "None"
  | bool b => if b then "True" else "False"
  | int n => toString n
  | float x => x.written
  | text s => Text.quoted s
  | list items => "[" ++ ", ".intercalate (quotedItems items) ++ "]"
  | object members => "\x7b" ++ ", ".intercalate (quotedMembers members) ++ "\x7d"

/-- The items of a list, each with texts between quotes. -/
def quotedItems : List Value → List String
  | [] => []
  | v :: vs => quoted v :: quotedItems vs

/-- The members of an object, each as its key and its value. -/
def quotedMembers : List (String × Value) → List String
  | [] => []
  | (k, v) :: rest => (Text.quoted k ++ ": " ++ quoted v) :: quotedMembers rest

end

/-- A value with a text by itself shown bare. -/
def shown : Value → String
  | text s => s
  | v => v.quoted

end QueryLint.Data.Value
