import QueryLint.Text.Blank
import QueryLint.Text.Word

/-!
# Message templates

A template holds placeholders: a name between two opening and two closing braces, with blanks
around the name where wanted. One scan from left to right replaces each placeholder whose name has
a value; a placeholder without a value stays as it is written, and values are not scanned again.
-/
namespace QueryLint.Text

/-- A placeholder at the front of some characters: its name, and how many characters it takes. -/
structure Placeholder where
  name : List Char
  length : Nat

/-- The placeholder at the front of some characters. -/
def placeholder? (cs : List Char) : Option Placeholder :=
  match cs with
  | '\x7b' :: '\x7b' :: inner =>
    let named := inner.dropWhile isBlank
    let name := named.takeWhile isWordChar
    match name, (named.dropWhile isWordChar).dropWhile isBlank with
    | _ :: _, '\x7d' :: '\x7d' :: rest => some ⟨name, cs.length - rest.length⟩
    | _, _ => none
  | _ => none

def fillChars (value : String → Option String) : List Char → List Char
  | [] => []
  | c :: rest =>
    match placeholder? (c :: rest) with
    | some p =>
      ((value (String.ofList p.name)).map (·.toList)).getD ((c :: rest).take p.length) ++
        fillChars value (rest.drop (p.length - 1))
    | none => c :: fillChars value rest
  termination_by cs => cs.length
  decreasing_by all_goals (simp only [List.length_drop, List.length_cons]; omega)

def fill (template : String) (value : String → Option String) : String :=
  String.ofList (fillChars value template.toList)

end QueryLint.Text
