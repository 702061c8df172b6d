import QueryLint.Text.Utf8

/-!
# Positions

A byte offset as a row and a column, both counted from zero. A row ends at a line feed and only
there; a column counts bytes.
-/
namespace QueryLint.Text

/-- A row, and a byte in it. -/
structure Position where
  row : Nat
  column : Nat
  deriving DecidableEq, Repr

def lineFeed : UInt8 := 10

/-- The position of an offset: the line feeds before it, and the bytes since the last of them. -/
def position (bytes : Bytes) (offset : Nat) : Position where
  row := (bytes.take offset).count lineFeed
  column := offset - ((bytes.take offset).reverse.dropWhile (· != lineFeed)).length

def slice (bytes : Bytes) (start stop : Nat) : Bytes :=
  (bytes.take stop).drop start

/-- The bytes of a text from one offset up to another. The other bytes are not gone through. -/
def sliceOf (s : String) (start stop : Nat) : Bytes :=
  (s.toByteArray.extract start stop).data.toList

theorem sliceOf_eq (s : String) (start stop : Nat) :
    sliceOf s start stop = slice (utf8 s) start stop := by
  simp [sliceOf, slice, utf8, List.extract, List.drop_take]

def positionOf (s : String) (offset : Nat) : Position := position (sliceOf s 0 offset) offset

theorem positionOf_eq (s : String) (offset : Nat) :
    positionOf s offset = position (utf8 s) offset := by
  simp [positionOf, position, sliceOf_eq, slice, List.take_take]

end QueryLint.Text
