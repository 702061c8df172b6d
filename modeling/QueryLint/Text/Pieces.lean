/-!
# Pieces of a text
-/
namespace QueryLint.Text

/-- The pieces between the separators. There is always one more piece than separators. -/
def pieceChars (separator : Char) : List Char → List (List Char)
  | [] => [[]]
  | c :: rest =>
    match pieceChars separator rest with
    | [] => [[c]]
    | piece :: more => if c = separator then [] :: piece :: more else (c :: piece) :: more

/-- The pieces of a text between its separators. -/
def pieces (separator : Char) (s : String) : List String :=
  (pieceChars separator s.toList).map String.ofList

theorem pieceChars_ne_nil (separator : Char) (cs : List Char) : pieceChars separator cs ≠ [] := by
  cases cs with
  | nil => simp [pieceChars]
  | cons c rest =>
    unfold pieceChars
    split
    · simp
    · split <;> simp

end QueryLint.Text
