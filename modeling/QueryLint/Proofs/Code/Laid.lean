import QueryLint.Proofs.Code.Owners
import QueryLint.Proofs.Code.WellFormed
import QueryLint.Proofs.Text.Boundary

/-!
# Trees laid over a text

What the tree of a text without syntax errors keeps to: nodes lie inside their parents and one after
the other, between characters; names are leaves that spell something; parentheses begin with their
token, and a call begins with what it calls.

So what is called by a name takes up the first bytes of its call, and a call inside another one, that
is called by a name, begins later than it.
-/
namespace QueryLint.Code

open QueryLint.Text

namespace Node

/-- What can be relied on at a node of a tree without syntax errors. -/
structure IsShaped (n : Node) : Prop where
  range : n.label.start ≤ n.label.stop
  inside : ∀ c ∈ n.children, n.label.start ≤ c.label.start ∧ c.label.stop ≤ n.label.stop
  ordered : n.children.Pairwise fun a b => a.label.stop ≤ b.label.start
  leaf : n.kind ∈ identifierKinds → n.children.isEmpty
  spelled : n.kind ∈ identifierKinds → n.label.start < n.label.stop
  opening : n.kind = Kind.parenthesized → ∃ token ∈ n.children.head?,
    token.kind = "(" ∧ token.children.isEmpty ∧ token.label.start < token.label.stop
  callee : n.kind = Kind.callExpression → ∀ f ∈ n.children, f.label.role = some .function →
    f.label.start = n.label.start

instance (n : Node) : Decidable n.IsShaped :=
  decidable_of_iff
    (n.label.start ≤ n.label.stop ∧
      (∀ c ∈ n.children, n.label.start ≤ c.label.start ∧ c.label.stop ≤ n.label.stop) ∧
      (n.children.Pairwise fun a b => a.label.stop ≤ b.label.start) ∧
      (n.kind ∈ identifierKinds → n.children.isEmpty) ∧
      (n.kind ∈ identifierKinds → n.label.start < n.label.stop) ∧
      (n.kind = Kind.parenthesized → ∃ token ∈ n.children.head?,
        token.kind = "(" ∧ token.children.isEmpty ∧ token.label.start < token.label.stop) ∧
      (n.kind = Kind.callExpression → ∀ f ∈ n.children, f.label.role = some .function →
        f.label.start = n.label.start))
    ⟨fun ⟨hr, hi, ho, hl, hs, hp, hc⟩ => ⟨hr, hi, ho, hl, hs, hp, hc⟩,
      fun h => ⟨h.range, h.inside, h.ordered, h.leaf, h.spelled, h.opening, h.callee⟩⟩

/-- Whether this holds all over a tree, and each node begins and ends between characters. -/
structure Laid (text : String) (tree : Node) : Prop where
  shaped : ∀ p ∈ tree.places, p.node.IsShaped
  boundary : ∀ p ∈ tree.places, IsBoundary text p.start ∧ IsBoundary text p.stop

/-- In a text of ASCII characters every offset is a boundary. -/
theorem laid_of_ascii {text : String} {tree : Node}
    (ascii : text.toList.all fun c => c.utf8Size = 1)
    (shaped : ∀ p ∈ tree.places, p.node.IsShaped)
    (hstop : ∀ p ∈ tree.places, p.stop ≤ byteLength text) : tree.Laid text := by
  have hascii : ∀ c ∈ text.toList, c.utf8Size = 1 := fun c hc =>
    of_decide_eq_true (List.all_eq_true.mp ascii c hc)
  refine ⟨shaped, fun p hp => ?_⟩
  have hrange : p.start ≤ p.stop := (shaped p hp).range
  have hle := hstop p hp
  exact ⟨isBoundary_of_ascii hascii (by omega), isBoundary_of_ascii hascii hle⟩

end Node

namespace Place

theorem exists_function_of_callee? {c callee : Place} (h : c.callee? = some callee) :
    ∃ f ∈ c.children, f.label.role = some .function ∧ f.unwrap = some callee := by
  unfold callee? at h
  split_ifs at h
  obtain ⟨f, hf, hcallee⟩ := Option.bind_eq_some_iff.mp h
  exact ⟨f, mem_children_of_childAs hf, by simpa using List.find?_some hf, hcallee⟩

variable {text : String} {tree : Node}

theorem nested_of_laid (laid : tree.Laid text) : tree.Nested := by
  constructor
  · intro p hp c hc
    exact (laid.shaped p hp).inside c.node (node_mem_of_mem_children hc)
  · intro p hp
    have h := (laid.shaped p hp).ordered
    rw [← map_node_children, List.pairwise_map] at h
    exact h

/-- Inside parentheses or a name, calls begin later. -/
theorem start_lt_of_opening (laid : tree.Laid text) {f v : Place} (hf : f ∈ tree.places)
    (hkind : f.isIdentifier ∨ f.kind = Kind.parenthesized) (hv : v ∈ f.preorder) (hcall : v.isCall) :
    f.start < v.start := by
  have hcallKind : v.kind = Kind.callExpression := beq_iff_eq.mp hcall
  rcases hkind with hk | hk
  · -- a name is a leaf and no call
    have hleaf : f.node.children = [] :=
      List.isEmpty_iff.mp ((laid.shaped f hf).leaf (List.contains_iff_mem.mp hk))
    rw [preorder_eq, descendants, children, hleaf] at hv
    cases List.mem_singleton.mp hv
    rw [isIdentifier, hcallKind] at hk
    exact absurd hk (by decide)
  · obtain ⟨token, hhead, htoken, hempty, hpos⟩ := (laid.shaped f hf).opening hk
    obtain ⟨rest, hchildren⟩ := List.head?_eq_some_iff.mp hhead
    have hleaf : token.children = [] := List.isEmpty_iff.mp hempty
    rcases mem_preorder_iff.mp hv with rfl | ⟨d, hd, hvd⟩
    · exact absurd (hk.symm.trans hcallKind) (by decide)
    · have hdf := mem_places_of_mem_children hf hd
      have hbounds := within_of_mem_preorder (nested_of_laid laid) hdf hvd
      have hinside := (laid.shaped f hf).inside token (hchildren ▸ List.mem_cons_self)
      have hordered := (laid.shaped f hf).ordered
      have hdn := node_mem_of_mem_children hd
      rw [hchildren] at hordered hdn
      have hfstart : f.start = f.node.label.start := rfl
      have hdstart : d.start = d.node.label.start := rfl
      rcases List.mem_cons.mp hdn with hdt | hdr
      · -- the token itself is no call and has nothing below
        rw [preorder_eq, descendants, children, hdt, hleaf] at hvd
        cases List.mem_singleton.mp hvd
        have hkd : v.node.kind = Kind.callExpression := hcallKind
        rw [hdt, htoken] at hkd
        exact absurd hkd (by decide)
      · have hafter := (List.pairwise_cons.mp hordered).1 d.node hdr
        omega

/-- A call that is called by a name takes up some bytes. -/
theorem start_lt_stop_of_callee? (laid : tree.Laid text) {w callee : Place} (hw : w ∈ tree.places)
    (hcallee : w.callee? = some callee) (hname : callee.isIdentifier) : w.start < w.stop := by
  obtain ⟨f, hf, _, hunwrap⟩ := exists_function_of_callee? hcallee
  have hmem : callee ∈ w.preorder :=
    mem_preorder_iff.mpr (.inr ⟨f, hf, mem_preorder_of_unwrap hunwrap⟩)
  have hbounds := within_of_mem_preorder (nested_of_laid laid) hw hmem
  have hspelled : callee.start < callee.stop :=
    (laid.shaped callee (preorder_trans hw hmem)).spelled (List.contains_iff_mem.mp hname)
  omega

/-- A call inside another one that is called by a name begins later. -/
theorem start_lt_of_mem_descendants (laid : tree.Laid text) {w v callee : Place}
    (hw : w ∈ tree.places) (hcallee : w.callee? = some callee) (hname : callee.isIdentifier)
    (hv : v ∈ w.descendants) (hcall : v.isCall) (hpos : v.start < v.stop) : w.start < v.start := by
  have hnested := nested_of_laid laid
  obtain ⟨f, hf, hrole, hunwrap⟩ := exists_function_of_callee? hcallee
  have hft := mem_places_of_mem_children hw hf
  have hfirst : f.start = w.start :=
    (laid.shaped w hw).callee (beq_iff_eq.mp (isCall_of_callee? hcallee)) f.node (node_mem_of_mem_children hf)
      hrole
  have hkind : f.isIdentifier ∨ f.kind = Kind.parenthesized := by
    rw [unwrap_eq] at hunwrap
    split_ifs at hunwrap with hk
    · exact .inr hk
    · cases hunwrap
      exact .inl hname
  have hfpos : f.start < f.stop := by
    have hmem := mem_preorder_of_unwrap hunwrap
    have hbounds := within_of_mem_preorder hnested hft hmem
    have hspelled : callee.start < callee.stop :=
      (laid.shaped callee (preorder_trans hft hmem)).spelled (List.contains_iff_mem.mp hname)
    omega
  obtain ⟨c, hc, hvc⟩ := List.mem_flatMap.mp hv
  have hbounds := within_of_mem_preorder hnested (mem_places_of_mem_children hw hc) hvc
  have hinside := hnested.inside w hw c hc
  by_cases hcf : c = f
  · subst hcf
    have := start_lt_of_opening laid hft hkind hvc hcall
    omega
  · have hapart := apart_of_mem_children hnested hw hc hf hcf
    omega

end Place

end QueryLint.Code
