/-!
# Regular expressions

Regular expressions without repetition. A match goes from the front of a text to its end and tries all ways
to go on: what one expression takes off the front may leave several rests, and the next expression goes on
with each of them. The end is also seen in front of one line feed, if nothing follows it.
-/
namespace QueryLint.Text

inductive Regex where
  /-- What matches nothing at all. -/
  | never
  /-- A text as it stands. -/
  | literal (s : String)
  /-- One of two expressions, the first if both are possible. -/
  | either (a b : Regex)
  /-- One expression and the other behind it. -/
  | inTurn (a b : Regex)
  deriving DecidableEq, Repr

namespace Regex

/-- An expression, or nothing in its place. -/
def optional (r : Regex) : Regex := either r (literal "")

/-- One of some texts, the first that is possible. -/
def oneOf (texts : List String) : Regex := texts.foldr (fun s r => either (literal s) r) never

/-- What an expression may leave of a text, what it prefers to leave first. -/
def rests : Regex → List Char → List (List Char)
  | never, _ => []
  | literal s, cs => if s.toList.isPrefixOf cs then [cs.drop s.toList.length] else []
  | either a b, cs => a.rests cs ++ b.rests cs
  | inTurn a b, cs => (a.rests cs).flatMap b.rests

/-- Whether the end of a text is seen in front of what is left of it. -/
def isAtEnd (rest : List Char) : Bool := rest = [] || rest = ['\n']

/-- Whether an expression matches a text from its front to its end. -/
def matchesWhole (r : Regex) (s : String) : Bool := (r.rests s.toList).any isAtEnd

end Regex

end QueryLint.Text
