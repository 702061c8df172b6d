import QueryLint.Code.Source
import QueryLint.Proofs.Code.Laid

/-!
# Trees that span a text

In the tree of any text, with syntax errors or without, a node begins and ends between characters, and
does not end before it begins. So what stands at a node is a text, and takes up the bytes of the node.
-/
namespace QueryLint.Code

open QueryLint.Text

/-- Whether each node of a tree takes up a stretch of a text. -/
structure Node.Spans (text : String) (tree : Node) : Prop where
  range : ∀ p ∈ tree.places, p.start ≤ p.stop
  boundary : ∀ p ∈ tree.places, IsBoundary text p.start ∧ IsBoundary text p.stop

theorem Node.Laid.spans {text : String} {tree : Node} (laid : tree.Laid text) : tree.Spans text :=
  ⟨fun p hp => (laid.shaped p hp).range, laid.boundary⟩

variable {source : Source} {p : Place}

/-- What stands at a place of a tree takes up the bytes of the place. -/
theorem Source.utf8_textOf (spans : source.tree.Spans source.text) (hp : p ∈ source.tree.places) :
    utf8 (source.textOf p) = slice source.data p.start p.stop := by
  have hboundary := spans.boundary p hp
  have htext := exists_utf8_slice hboundary.1 hboundary.2 (spans.range p hp)
  cases htext with
  | intro s hs => rw [Source.textOf_eq, Source.data, hs, decodeLossy_utf8]

end QueryLint.Code
