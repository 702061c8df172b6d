import QueryLint.Data.Json.Writer
import QueryLint.Text.Order

/-!
# Canonical JSON

Data are written out with the members of each object in the order of their keys, and with a line
feed at the end, so that equal data give equal texts.
-/
namespace QueryLint.Data

open QueryLint.Text

/-- The members of an object in the order of their keys. -/
def Members.sorted (members : Members) : Members := members.mergeSort fun a b => textLe a.1 b.1

namespace Value

mutual

/-- A value with the members of each object in the order of their keys. -/
def sorted : Value → Value
  | list items => list (sortedItems items)
  | object members => object (Members.sorted (sortedMembers members))
  | v => v

def sortedItems : List Value → List Value
  | [] => []
  | v :: vs => sorted v :: sortedItems vs

def sortedMembers : List (String × Value) → List (String × Value)
  | [] => []
  | (k, v) :: rest => (k, sorted v) :: sortedMembers rest

end

end Value

def Json.usualIndent : Nat := 2

/-- By how much the lines of each level are indented, if there are lines. Less than nothing is nothing. -/
def Json.indentWidth (indent : Option Int) : Option Nat := indent.map Int.toNat

def Json.canonical (indent : Option Nat) (v : Value) : String :=
  Json.written indent v.sorted ++ "\n"

end QueryLint.Data
