import QueryLint.Text.Hex

/-!
# Limits

What a run comes up against that is not of its own making. Calls can stand inside each other only so deep.
And a file need not have a name that is UTF-8: a byte of a name that fits nowhere is handed over as a
character that stands for it, and such a character cannot be written as UTF-8 again.

What is not told of any limits has none.
-/
namespace QueryLint

open QueryLint.Text

/-- The limits of a run. -/
structure Limits where
  /-- How many calls may stand inside each other while a pattern is taken apart, if not any number. -/
  depth : Option Nat
  /-- The byte that a character of a file name stands for, if it stands for one that is no UTF-8. -/
  strayByte? : Char → Option UInt8

/-- Calls stand too deep inside each other. -/
structure TooDeep where
  deriving DecidableEq, Repr

def TooDeep.message (_ : TooDeep) : String := "maximum recursion depth exceeded"

/-- Bytes of a name that are no UTF-8: the place of the first one in a text with the name, and the
bytes that follow each other there. -/
structure StrayBytes where
  position : Nat
  bytes : List UInt8
  deriving DecidableEq, Repr

/-- One byte is named by the character that stands for it, several by their first and last place. -/
def StrayBytes.message (s : StrayBytes) : String :=
  let place := match s.bytes with
    | [b] => s!"character '\\udc{String.ofList (hexDigits 2 b.toNat)}' in position {s.position}"
    | bytes => s!"characters in position {s.position}-{s.position + bytes.length - 1}"
  s!"'utf-8' codec can't encode {place}: surrogates not allowed"

namespace Limits

/-- A limit for the depth of calls only. The names of files are texts. -/
def ofDepth (depth : Option Nat) : Limits := ⟨depth, fun _ => none⟩

def unlimited : Limits := ofDepth none

/-- The limits of a run by itself: of a thousand calls some fifty stand around the first one for a
pattern. -/
def usual : Limits := ofDepth (some 950)

/-- The first bytes of a name that are no UTF-8, where `offset` characters come before the name. -/
def strayBytes? (limits : Limits) (offset : Nat) (name : String) : Option StrayBytes :=
  let marks := name.toList.map limits.strayByte?
  let rest := marks.dropWhile Option.isNone
  match (rest.takeWhile Option.isSome).filterMap id with
  | [] => none
  | bytes => some ⟨offset + (marks.length - rest.length), bytes⟩

end Limits

/-- The room that is left for calls inside each other once one more is made. -/
def enter : Option Nat → Except TooDeep (Option Nat)
  | none => .ok none
  | some 0 => .error ⟨⟩
  | some (n + 1) => .ok (some n)

end QueryLint
