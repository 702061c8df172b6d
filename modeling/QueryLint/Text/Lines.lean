/-!
# Lines of a text

Two notions of line live side by side. Positions count line feeds only. The lines shown to a
reader end at any line break: line feed, carriage return (one break together with a following
line feed), vertical tab, form feed, the three upper information separators, next line, and the
line and paragraph separators.
-/
namespace QueryLint.Text

/-- Whether a character ends a line that is shown to a reader. -/
def isLineBreak : Char → Bool
  | '\n' | '\r' | '\x0b' | '\x0c' | '\x1c' | '\x1d' | '\x1e' => true
  | '\u0085' | '\u2028' | '\u2029' => true
  | _ => false

/-- The lines of some characters, without their breaks. A break at the very end ends the last
line and begins no other. -/
def lines : List Char → List (List Char)
  | [] => []
  | '\r' :: '\n' :: rest => [] :: lines rest
  | c :: rest =>
    if isLineBreak c then [] :: lines rest
    else match lines rest with
      | [] => [[c]]
      | line :: more => (c :: line) :: more

/-- The text with a line feed in place of each pair of a carriage return and a line feed. -/
def joinReturns : List Char → List Char
  | [] => []
  | '\r' :: '\n' :: rest => '\n' :: joinReturns rest
  | c :: rest => c :: joinReturns rest

/-- The text with a line feed in place of each carriage return, alone or before a line feed. -/
def plainNewlines : List Char → List Char
  | [] => []
  | '\r' :: '\n' :: rest => '\n' :: plainNewlines rest
  | '\r' :: rest => '\n' :: plainNewlines rest
  | c :: rest => c :: plainNewlines rest

/-- The length of a text that is shown in full. -/
def shownLimit : Nat := 200

/-- A text that is too long keeps one character less than the limit and ends in an ellipsis. -/
def shorten (limit : Nat) (cs : List Char) : List Char :=
  if cs.length ≤ limit then cs else cs.take (limit - 1) ++ ['…']

end QueryLint.Text
