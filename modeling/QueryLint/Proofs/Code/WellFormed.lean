import QueryLint.Binding.Variable
import QueryLint.Proofs.Code.Preorder

/-!
# Well-formed trees

What every tree of a grammar keeps to: the children of a node cover ranges inside its own, one
after the other, names are leaves, and no two scopes of one kind cover the same range. The last of
these is what lets a scope be told by its key.

So of two places in pre-order, the first either encloses the second or ends before it.
-/
namespace QueryLint.Code

open QueryLint.Binding

namespace Node

/-- What can be relied on in the tree of a source. -/
structure WellFormed (tree : Node) : Prop where
  range : ∀ p ∈ tree.places, p.start ≤ p.stop
  inside : ∀ p ∈ tree.places, ∀ c ∈ p.children, p.start ≤ c.start ∧ c.stop ≤ p.stop
  ordered : ∀ p ∈ tree.places, p.children.Pairwise fun a b => a.stop ≤ b.start
  leaf : ∀ p ∈ tree.places, p.isIdentifier → p.node.children.isEmpty
  scopes : ((tree.places.filter isScope).map scopeKey).Nodup

/-- Whether the children of each node cover ranges inside its own, one after the other. -/
structure Nested (tree : Node) : Prop where
  inside : ∀ p ∈ tree.places, ∀ c ∈ p.children, p.start ≤ c.start ∧ c.stop ≤ p.stop
  ordered : ∀ p ∈ tree.places, p.children.Pairwise fun a b => a.stop ≤ b.start

theorem WellFormed.nested {tree : Node} (wf : tree.WellFormed) : tree.Nested :=
  ⟨wf.inside, wf.ordered⟩

instance (tree : Node) : Decidable tree.WellFormed :=
  decidable_of_iff
    ((∀ p ∈ tree.places, p.start ≤ p.stop) ∧
      (∀ p ∈ tree.places, ∀ c ∈ p.children, p.start ≤ c.start ∧ c.stop ≤ p.stop) ∧
      (∀ p ∈ tree.places, p.children.Pairwise fun a b => a.stop ≤ b.start) ∧
      (∀ p ∈ tree.places, p.isIdentifier → p.node.children.isEmpty) ∧
      ((tree.places.filter isScope).map scopeKey).Nodup)
    ⟨fun ⟨hr, hi, ho, hl, hs⟩ => ⟨hr, hi, ho, hl, hs⟩,
      fun h => ⟨h.range, h.inside, h.ordered, h.leaf, h.scopes⟩⟩

/-- A named node without errors, for trees that are written out. -/
def named (kind : Kind) (start stop : Nat) (role : Option Role) (children : List Node) : Node :=
  .mk ⟨kind, start, stop, true, false, false, role⟩ children

/-- Punctuation or a keyword, for trees that are written out. -/
def token (kind : Kind) (start stop : Nat) (role : Option Role := none) : Node :=
  .mk ⟨kind, start, stop, false, false, false, role⟩ []

end Node

namespace Place

variable {tree : Node}

theorem within_of_mem_preorder (nested : tree.Nested) {p q : Place} (hp : p ∈ tree.places)
    (hq : q ∈ p.preorder) : p.start ≤ q.start ∧ q.stop ≤ p.stop := by
  induction p using children_induction with
  | step p ih =>
    rcases mem_preorder_iff.mp hq with rfl | ⟨c, hc, hqc⟩
    · exact ⟨Nat.le_refl _, Nat.le_refl _⟩
    · have hpc := nested.inside p hp c hc
      have hcq := ih c hc (mem_places_of_mem_children hp hc) hqc
      omega

/-- Two children of a node are apart. -/
theorem apart_of_mem_children (nested : tree.Nested) {p c d : Place} (hp : p ∈ tree.places)
    (hc : c ∈ p.children) (hd : d ∈ p.children) (hne : c ≠ d) :
    c.stop ≤ d.start ∨ d.stop ≤ c.start := by
  have hpairs := nested.ordered p hp
  obtain ⟨i, hi, rfl⟩ := List.getElem_of_mem hc
  obtain ⟨j, hj, rfl⟩ := List.getElem_of_mem hd
  rcases Nat.lt_trichotomy i j with hij | rfl | hji
  · exact .inl (List.pairwise_iff_getElem.mp hpairs i j hi hj hij)
  · exact absurd rfl hne
  · exact .inr (List.pairwise_iff_getElem.mp hpairs j i hj hi hji)

theorem pairwise_preorder (nested : tree.Nested) {p : Place} (hp : p ∈ tree.places) :
    p.preorder.Pairwise fun a b => a ∈ b.ancestors ∨ a.stop ≤ b.start := by
  induction p using children_induction with
  | step p ih =>
    rw [preorder_eq, List.pairwise_cons]
    refine ⟨fun b hb => .inl (mem_ancestors_of_mem_descendants hb), ?_⟩
    rw [descendants, List.pairwise_flatMap]
    refine ⟨fun c hc => ih c hc (mem_places_of_mem_children hp hc), ?_⟩
    -- places in the subtrees of two children are as far apart as the children
    refine (nested.ordered p hp).imp_of_mem ?_
    intro c d hc hd hcd a ha b hb
    have hac := within_of_mem_preorder nested (mem_places_of_mem_children hp hc) ha
    have hbd := within_of_mem_preorder nested (mem_places_of_mem_children hp hd) hb
    exact .inr (by omega)

/-- Of two places of a tree in pre-order, the first encloses the second or ends before it. -/
theorem pairwise_places (nested : tree.Nested) :
    tree.places.Pairwise fun a b => a ∈ b.ancestors ∨ a.stop ≤ b.start :=
  pairwise_preorder nested (mem_preorder_self _)

/-- Nothing lies below a name. -/
theorem not_isIdentifier_of_mem_ancestors (wf : tree.WellFormed) {a q : Place}
    (hq : q ∈ tree.places) (ha : a ∈ q.ancestors) : ¬ a.isIdentifier := by
  intro hk
  have hap := mem_places_of_mem_ancestors hq ha
  have hnil : a.node.children = [] := List.isEmpty_iff.mp (wf.leaf a hap hk)
  have hd : q ∈ a.descendants := (mem_descendants_iff hap).mpr ⟨hq, ha⟩
  rw [descendants, children, hnil] at hd
  exact List.not_mem_nil hd

/-- A scope whose key is that of a place above `q` is that place. -/
theorem mem_ancestors_of_scopeKey (wf : tree.WellFormed) {b q : Place} (hb : b ∈ tree.places)
    (hq : q ∈ tree.places) (hs : isScope b) (h : scopeKey b ∈ q.ancestors.map scopeKey) :
    b ∈ q.ancestors := by
  obtain ⟨a, ha, hk⟩ := List.mem_map.mp h
  have hkind : a.kind = b.kind := congrArg ScopeKey.kind hk
  have has : isScope a := by rw [isScope, hkind]; exact hs
  have hap := mem_places_of_mem_ancestors hq ha
  have hab : a = b := List.inj_on_of_nodup_map wf.scopes (List.mem_filter.mpr ⟨hap, has⟩)
    (List.mem_filter.mpr ⟨hb, hs⟩) hk
  rwa [← hab]

end Place

end QueryLint.Code
