import QueryLint.Code.Expression
import QueryLint.Code.Language
import QueryLint.Code.Search
import QueryLint.Text.Position

/-!
# Parsed sources

A source text together with its tree. The tree counts bytes, so the text of a node is cut out of
the bytes of the source.

A grammar always gives a tree; where the text is not in the language, the tree has error nodes or
nodes that are missing from the text. `errors` lists the outermost of these.
-/
namespace QueryLint.Code

open QueryLint.Text QueryLint.Files

/-- How the grammars of the languages read a text. -/
abbrev Grammar := Language → String → Node

/-- A source text and its tree. -/
structure Source where
  /-- The name under which the source is shown. -/
  path : String
  text : String
  language : Language
  tree : Node

namespace Source

/-- The source of a text, in a language that is named or that its path tells. -/
def parse (grammar : Grammar) (text path : String) (languageName : Option String) :
    Except LanguageError Source :=
  match Language.choose languageName (.ofString path) with
  | .ok language => .ok ⟨path, text, language, grammar language text⟩
  | .error e => .error e

def data (source : Source) : Bytes := utf8 source.text

def root (source : Source) : Place := .root source.tree

def textOf (source : Source) (p : Place) : String :=
  decodeLossy (sliceOf source.text p.start p.stop)

theorem textOf_eq (source : Source) (p : Place) :
    source.textOf p = decodeLossy (slice source.data p.start p.stop) := by
  rw [textOf, sliceOf_eq, data]

/-- The name that a node spells, if it is of a kind that names something. -/
def nameOf? (source : Source) (p : Place) : Option String :=
  if p.isIdentifier then some (source.textOf p) else none

/-- The name of the member that a member expression takes. -/
def propertyName? (source : Source) (p : Place) : Option String :=
  p.property?.bind source.nameOf?

def startOf (source : Source) (p : Place) : Position := positionOf source.text p.start

def stopOf (source : Source) (p : Place) : Position := positionOf source.text p.stop

def hasErrors (source : Source) : Bool := source.tree.label.hasError

/-- Whether a node is an error by itself: text that fits nowhere, or something missing. -/
def isFaulty (p : Place) : Bool := p.kind == Kind.error || p.label.isMissing

/-- What the search for errors does at a place. -/
def errorVerdict (p : Place) : Place.Verdict :=
  if isFaulty p then .take else if p.label.hasError then .below else .skip

/-- The errors that lie in no other error, in source order. -/
def errors (source : Source) : List Place :=
  Id.run (Place.searchOn (fun p => pure (errorVerdict p)) [source.root])

/-- The line of the first error, zero if there is none. -/
def firstErrorLine (source : Source) : Nat :=
  match source.errors with
  | [] => 0
  | p :: _ => (source.startOf p).row + 1

end Source

end QueryLint.Code
