import QueryLint.Data.Value
import QueryLint.Text.Hex

/-!
# Writing JSON

Values as JSON text. Characters other than the quote, the backslash and the control characters
below the space are written as they are. With an indentation each item and member stands on a line
of its own; without one all is on a single line.
-/
namespace QueryLint.Data.Json

open QueryLint.Text

def escapedChar (c : Char) : List Char :=
  if c = '"' then ['\\', '"']
  else if c = '\\' then ['\\', '\\']
  else if c = '\n' then ['\\', 'n']
  else if c = '\r' then ['\\', 'r']
  else if c = '\t' then ['\\', 't']
  else if c = '\x08' then ['\\', 'b']
  else if c = '\x0c' then ['\\', 'f']
  else if c.toNat < 0x20 then '\\' :: 'u' :: hexDigits 4 c.toNat
  else [c]

def writtenText (s : String) : String :=
  String.ofList ('"' :: s.toList.flatMap escapedChar ++ ['"'])

def writtenFloat : Binary64 → String
  | .nan => "NaN"
  | .infinite negative => if negative then "-Infinity" else "Infinity"
  | x => x.written

/-- Parts between an opening and a closing mark. With an indentation each part stands on its own
line, one level deeper than the marks. -/
def enclosed (opening closing : String) (indent : Option Nat) (depth : Nat)
    (parts : List String) : String :=
  if parts.isEmpty then opening ++ closing
  else match indent with
    | none => opening ++ ", ".intercalate parts ++ closing
    | some width =>
      let line (d : Nat) : String := "\n" ++ String.ofList (List.replicate (width * d) ' ')
      opening ++ line (depth + 1) ++ ("," ++ line (depth + 1)).intercalate parts ++
        line depth ++ closing

mutual

/-- A value that stands `depth` levels deep. -/
def writtenAt (indent : Option Nat) (depth : Nat) : Value → String
  | .null => "null"
  | .bool b => if b then "true" else "false"
  | .int n => toString n
  | .float x => writtenFloat x
  | .text s => writtenText s
  | .list items => enclosed "[" "]" indent depth (writtenItems indent (depth + 1) items)
  | .object members =>
    enclosed "\x7b" "\x7d" indent depth (writtenMembers indent (depth + 1) members)

def writtenItems (indent : Option Nat) (depth : Nat) : List Value → List String
  | [] => []
  | v :: vs => writtenAt indent depth v :: writtenItems indent depth vs

/-- The members of an object, each as its key and its value. -/
def writtenMembers (indent : Option Nat) (depth : Nat) : List (String × Value) → List String
  | [] => []
  | (k, v) :: rest =>
    (writtenText k ++ ": " ++ writtenAt indent depth v) :: writtenMembers indent depth rest

end

def written (indent : Option Nat) (v : Value) : String := writtenAt indent 0 v

end QueryLint.Data.Json
