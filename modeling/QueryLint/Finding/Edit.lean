import QueryLint.Data.Value
import QueryLint.Text.Utf8

/-!
# Edits

An edit puts a text in place of a range of bytes. Several edits of one text are applied from the
last to the first, so that the offsets of those still to come stay right; an edit is skipped if it
reaches into one that was applied, or past the end of the text.

Offsets may be any integers. A negative one counts from the end of the text, and one that lies
outside is moved to the nearest end.
-/
namespace QueryLint.Finding

open QueryLint.Text QueryLint.Data

/-- Puts a text in place of the bytes from `start` up to `stop`. -/
structure Edit where
  start : Int
  stop : Int
  text : String
  deriving DecidableEq, Repr

namespace Edit

def toValue (e : Edit) : Value :=
  .object [("start", .int e.start), ("end", .int e.stop), ("text", .text e.text)]

/-- The place that an offset means in so many bytes. -/
def offset (length : Nat) (n : Int) : Nat := if n < 0 then (length + n).toNat else n.toNat

/-- The bytes with the edit's text in place of its range. -/
def splice (bytes : Bytes) (e : Edit) : Bytes :=
  bytes.take (offset bytes.length e.start) ++ utf8 e.text ++
    bytes.drop (offset bytes.length e.stop)

/-- Whether an edit comes before another when they are applied: the one that starts later, or of
those that start together the one that ends later. -/
def precedes (a b : Edit) : Bool := b.start < a.start || b.start == a.start && b.stop ≤ a.stop

/-- The state between two edits. -/
structure Progress where
  bytes : Bytes
  /-- The offset that edits still to come may reach up to. -/
  bound : Int
  applied : Nat
  skipped : Nat

/-- Applies an edit or skips it. -/
def Progress.step (p : Progress) (e : Edit) : Progress :=
  if p.bound < e.stop ∨ p.bytes.length < e.stop then { p with skipped := p.skipped + 1 }
  else { p with bytes := splice p.bytes e, bound := e.start, applied := p.applied + 1 }

/-- Each edit is either applied or skipped. -/
theorem Progress.count_step (p : Progress) (e : Edit) :
    (p.step e).applied + (p.step e).skipped = p.applied + p.skipped + 1 := by
  unfold Progress.step
  split <;> simp only <;> omega

/-- The bytes with all the edits applied that can be, and how many were and were not. -/
def applyBytes (bytes : Bytes) (edits : List Edit) : Progress :=
  (edits.mergeSort precedes).foldl Progress.step ⟨bytes, bytes.length + 1, 0, 0⟩

/-- A text after some edits. -/
structure Outcome where
  text : String
  applied : Nat
  skipped : Nat

/-- The text with all the edits applied that can be. An edit that cuts a character in two may
leave bytes that are no text. -/
def applyAll (text : String) (edits : List Edit) : Except Utf8.Fault Outcome :=
  let p := applyBytes (utf8 text) edits
  (decode p.bytes).map (⟨·, p.applied, p.skipped⟩)

end Edit

end QueryLint.Finding
