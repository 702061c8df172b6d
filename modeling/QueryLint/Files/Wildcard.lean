/-!
# Wildcards

A pattern for names. A star stands for any characters, a question mark for any one character, and
brackets for one of the characters between them, or after an exclamation mark for one of the
others. Between brackets a hyphen joins two characters to a range; a range that runs backwards
stands for nothing. A closing bracket that comes first is one of the characters, and an opening
bracket that is never closed stands for itself.
-/
namespace QueryLint.Files

/-- A set of characters between brackets. -/
structure CharSet where
  negated : Bool
  members : List Char
  ranges : List (Char × Char)
  deriving DecidableEq, Repr

def CharSet.contains (s : CharSet) (c : Char) : Bool :=
  (s.members.contains c || s.ranges.any fun r => r.1 ≤ c && c ≤ r.2) != s.negated

/-- A part of a pattern. -/
inductive Wildcard where
  | any
  | one
  | char (c : Char)
  | set (s : CharSet)
  deriving DecidableEq, Repr

namespace Wildcard

/-- The number of characters before the closing bracket, none if there is no closing bracket. -/
def bracketLength (cs : List Char) : Option Nat :=
  let negation := match cs with
    | '!' :: _ => 1
    | _ => 0
  let first := match cs.drop negation with
    | ']' :: _ => 1
    | _ => 0
  let inner := (cs.drop (negation + first)).takeWhile (· != ']')
  if negation + first + inner.length < cs.length then some (negation + first + inner.length)
  else none

/-- The characters before the first hyphen from position `start` on, and those after it. -/
def cutAtHyphen (start : Nat) (cs : List Char) : Option (List Char × List Char) :=
  let skipped := start + ((cs.drop start).takeWhile (· != '-')).length
  if skipped < cs.length then some (cs.take skipped, cs.drop (skipped + 1)) else none

/-- The chunks that hyphens join to ranges. A hyphen counts from position `start` on, and after it
from the third character on. -/
def chunks : Nat → Nat → List Char → List (List Char)
  | 0, _, cs => [cs]
  | steps + 1, start, cs =>
    match cutAtHyphen start cs with
    | some (chunk, rest) => chunk :: chunks steps 2 rest
    | none => [cs]

/-- Chunks whose last one is not empty: an empty one leaves a hyphen to the one before it. -/
def closeChunks : List (List Char) → List (List Char)
  | [chunk, []] => [chunk ++ ['-']]
  | chunk :: rest => chunk :: closeChunks rest
  | [] => []

/-- Joins chunks where the range between them would run backwards, which drops its two ends. -/
def dropEmptyRanges : List (List Char) → List (List Char)
  | [] => []
  | chunk :: rest =>
    match dropEmptyRanges rest with
    | [] => [chunk]
    | next :: more =>
      match chunk.getLast?, next with
      | some low, high :: tail =>
        if high < low then (chunk.dropLast ++ tail) :: more else chunk :: next :: more
      | _, _ => chunk :: next :: more

/-- The ranges between chunks that follow each other. -/
def rangesOf : List (List Char) → List (Char × Char)
  | chunk :: next :: more =>
    (match chunk.getLast?, next with
      | some low, high :: _ => [(low, high)]
      | _, _ => []) ++ rangesOf (next :: more)
  | _ => []

/-- The set of the characters between two brackets. -/
def setOf (cs : List Char) : CharSet :=
  let parts :=
    if cs.contains '-' then
      let start := match cs with
        | '!' :: _ => 2
        | _ => 1
      dropEmptyRanges (closeChunks (chunks cs.length start cs))
    else [cs]
  match parts with
  | ('!' :: first) :: more => ⟨true, (first :: more).flatten, rangesOf (first :: more)⟩
  | parts => ⟨false, parts.flatten, rangesOf parts⟩

/-- The parts of a pattern. The first argument bounds the number of parts. -/
def parse : Nat → List Char → List Wildcard
  | 0, _ => []
  | _, [] => []
  | steps + 1, '*' :: rest => .any :: parse steps rest
  | steps + 1, '?' :: rest => .one :: parse steps rest
  | steps + 1, '[' :: rest =>
    match bracketLength rest with
    | some n => .set (setOf (rest.take n)) :: parse steps (rest.drop (n + 1))
    | none => .char '[' :: parse steps rest
  | steps + 1, c :: rest => .char c :: parse steps rest

def ofString (pattern : String) : List Wildcard := parse pattern.length pattern.toList

/-- Whether a rest of the characters satisfies a condition. -/
def someSuffix (holds : List Char → Bool) : List Char → Bool
  | [] => holds []
  | c :: rest => holds (c :: rest) || someSuffix holds rest

def accepts : List Wildcard → List Char → Bool
  | [], cs => cs.isEmpty
  | .any :: more, cs => someSuffix (accepts more) cs
  | .one :: more, cs =>
    match cs with
    | _ :: rest => accepts more rest
    | [] => false
  | .char d :: more, cs =>
    match cs with
    | c :: rest => c == d && accepts more rest
    | [] => false
  | .set s :: more, cs =>
    match cs with
    | c :: rest => s.contains c && accepts more rest
    | [] => false

end Wildcard

def nameMatches (pattern name : String) : Bool :=
  Wildcard.accepts (Wildcard.ofString pattern) name.toList

def hasWildcards (pattern : String) : Bool :=
  pattern.toList.any fun c => c == '*' || c == '?' || c == '['

end QueryLint.Files
