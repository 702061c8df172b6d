import QueryLint.Text.Pieces

/-!
# File paths

A path is a list of component names below the current directory or below the root. Empty
components and single dots are dropped when a path is read; double dots are kept. A path that
begins with exactly two slashes has a root of its own.
-/
namespace QueryLint.Files

open QueryLint.Text

/-- What a path starts from. -/
inductive Anchor where
  | current
  | root
  | doubledRoot
  deriving DecidableEq, Repr

/-- The text of an anchor in front of the components. -/
def Anchor.text : Anchor → String
  | .current => ""
  | .root => "/"
  | .doubledRoot => "//"

/-- A path: where it starts, and its components. -/
structure FilePath where
  anchor : Anchor
  parts : List String
  deriving DecidableEq, Repr

namespace FilePath

def ofString (s : String) : FilePath where
  anchor := match s.toList.takeWhile (· == '/') with
    | [] => .current
    | [_, _] => .doubledRoot
    | _ => .root
  parts := (pieces '/' s).filter fun part => part != "" && part != "."

/-- The text of a path. The empty path is written as a dot. -/
def toString (p : FilePath) : String :=
  match p.anchor.text ++ "/".intercalate p.parts with
  | "" => "."
  | s => s

instance : ToString FilePath := ⟨toString⟩

def isAbsolute (p : FilePath) : Bool := p.anchor != .current

/-- The last component, empty if there is none. -/
def name (p : FilePath) : String := p.parts.getLast?.getD ""

def parent (p : FilePath) : FilePath := { p with parts := p.parts.dropLast }

/-- The path `q` as seen from `p`. -/
def join (p q : FilePath) : FilePath :=
  if q.isAbsolute then q else { p with parts := p.parts ++ q.parts }

/-- The path of something directly below. -/
def child (p : FilePath) (name : String) : FilePath := { p with parts := p.parts ++ [name] }

/-- The end of a name from its last dot on. A name has no suffix if its only dot comes first or
its last dot comes last. -/
def suffixOf (name : String) : String :=
  let after := name.toList.reverse.takeWhile (· != '.')
  match name.toList.reverse.dropWhile (· != '.') with
  | _ :: _ :: _ => if after.isEmpty then "" else String.ofList ('.' :: after.reverse)
  | _ => ""

def suffix (p : FilePath) : String := suffixOf p.name

/-- The path with a text added to its last component. -/
def extendName (p : FilePath) (extra : String) : FilePath :=
  { p with parts := p.parts.dropLast ++ [p.name ++ extra] }

/-- The components of `p` below `base`, none if it does not lie at or below it. -/
def below? (p base : FilePath) : Option (List String) :=
  if p.anchor = base.anchor ∧ base.parts.isPrefixOf p.parts then
    some (p.parts.drop base.parts.length)
  else none

/-- The texts that paths are ordered by: the anchor, unless it is the current directory, and the
components. -/
def orderKey (p : FilePath) : List String :=
  match p.anchor with
  | .current => p.parts
  | a => a.text :: p.parts

def le (p q : FilePath) : Bool := !(q.orderKey < p.orderKey)

end FilePath

end QueryLint.Files
