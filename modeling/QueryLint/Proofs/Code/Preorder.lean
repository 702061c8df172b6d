import Mathlib.Data.List.Flatten
import Mathlib.Data.List.Nodup
import QueryLint.Code.Place

/-!
# Places in pre-order

What the lists of places say about going up. The places at and below a place are those that lead
back to it, each is listed once, and a place's number is its position in the list of its tree.

Places above a common place are told apart by their depth alone, and this is what the inductions on
the tree turn on.
-/
namespace QueryLint.Code

namespace Place

/-- How many places are above. -/
def depth (p : Place) : Nat := p.ancestors.length

@[simp] theorem ancestors_root (n : Node) : (root n).ancestors = [] := rfl

@[simp] theorem ancestors_child (p : Place) (i : Nat) (n : Node) :
    (child p i n).ancestors = p :: p.ancestors := rfl

theorem ancestors_of_mem_children {p c : Place} (h : c ∈ p.children) :
    c.ancestors = p :: p.ancestors := by
  obtain ⟨i, n, rfl, _⟩ := childrenFrom_spec h
  rfl

theorem depth_of_mem_children {p c : Place} (h : c ∈ p.children) : c.depth = p.depth + 1 := by
  simp only [depth, ancestors_of_mem_children h, List.length_cons]

theorem ancestors_trans {a b q : Place} (hab : a ∈ b.ancestors) (hbq : b ∈ q.ancestors) :
    a ∈ q.ancestors := by
  induction q with
  | root n => cases hbq
  | child p i n ih =>
    rcases List.mem_cons.mp hbq with rfl | hbp
    · exact List.mem_cons_of_mem _ hab
    · exact List.mem_cons_of_mem _ (ih hbp)

theorem depth_lt_of_mem_ancestors {a q : Place} (h : a ∈ q.ancestors) : a.depth < q.depth := by
  induction q with
  | root n => cases h
  | child p i n ih =>
    have hd : (child p i n).depth = p.depth + 1 := rfl
    rcases List.mem_cons.mp h with rfl | hp
    · omega
    · have := ih hp
      omega

/-- Of two places above a third, one is above the other. -/
theorem ancestors_linear {a b q : Place} (ha : a ∈ q.ancestors) (hb : b ∈ q.ancestors) :
    a = b ∨ a ∈ b.ancestors ∨ b ∈ a.ancestors := by
  induction q with
  | root n => cases ha
  | child p i n ih =>
    rcases List.mem_cons.mp ha with rfl | ha' <;> rcases List.mem_cons.mp hb with rfl | hb'
    · exact .inl rfl
    · exact .inr (.inr hb')
    · exact .inr (.inl ha')
    · exact ih ha' hb'

theorem eq_of_depth_eq {a b q : Place} (ha : a ∈ q.ancestors) (hb : b ∈ q.ancestors)
    (h : a.depth = b.depth) : a = b := by
  rcases ancestors_linear ha hb with rfl | hab | hba
  · rfl
  · have := depth_lt_of_mem_ancestors hab
    omega
  · have := depth_lt_of_mem_ancestors hba
    omega

/-- Above a common place, being higher up is being at a lesser depth. -/
theorem mem_ancestors_iff_depth_lt {a b q : Place} (ha : a ∈ q.ancestors) (hb : b ∈ q.ancestors) :
    a ∈ b.ancestors ↔ a.depth < b.depth := by
  refine ⟨depth_lt_of_mem_ancestors, fun h => ?_⟩
  rcases ancestors_linear ha hb with rfl | hab | hba
  · omega
  · exact hab
  · have := depth_lt_of_mem_ancestors hba
    omega

/-- A fact that holds of a place when it holds of its children holds of all places. -/
@[elab_as_elim]
theorem children_induction {motive : Place → Prop}
    (step : ∀ p, (∀ c ∈ p.children, motive c) → motive p) (p : Place) : motive p :=
  step p fun c _ => children_induction step c
termination_by p.node.size
decreasing_by exact size_lt_of_mem_children ‹_›

theorem preorderNodes_eq (parent : Place) (i : Nat) (ns : List Node) :
    preorderNodes parent i ns = (parent.childrenFrom i ns).flatMap preorder := by
  induction ns generalizing i with
  | nil => rfl
  | cons n ns ih =>
    rw [preorderNodes, ih, childrenFrom, List.flatMap_cons]
    rfl

/-- The places below `p`, in pre-order. -/
def descendants (p : Place) : List Place := p.children.flatMap preorder

theorem preorder_eq (p : Place) : p.preorder = p :: p.descendants := by
  rcases hp : p.node with ⟨l, cs⟩
  rw [preorder, hp, preorderNode, preorderNodes_eq, descendants, children, hp]
  rfl

theorem mem_preorder_iff {p q : Place} :
    q ∈ p.preorder ↔ q = p ∨ ∃ c ∈ p.children, q ∈ c.preorder := by
  rw [preorder_eq, List.mem_cons, descendants, List.mem_flatMap]

theorem mem_preorder_self (p : Place) : p ∈ p.preorder := mem_preorder_iff.mpr (.inl rfl)

theorem mem_preorder_of_mem_children {p c : Place} (h : c ∈ p.children) : c ∈ p.preorder :=
  mem_preorder_iff.mpr (.inr ⟨c, h, mem_preorder_self c⟩)

theorem preorder_trans {p q r : Place} (hq : q ∈ p.preorder) (hr : r ∈ q.preorder) :
    r ∈ p.preorder := by
  induction p using children_induction with
  | step p ih =>
    rcases mem_preorder_iff.mp hq with rfl | ⟨c, hc, hqc⟩
    · exact hr
    · exact mem_preorder_iff.mpr (.inr ⟨c, hc, ih c hc hqc⟩)

/-- What is listed from a place is listed from those above it, in the same order. -/
theorem preorder_sublist {p q : Place} (hq : q ∈ p.preorder) : q.preorder.Sublist p.preorder := by
  induction p using children_induction with
  | step p ih =>
    rcases mem_preorder_iff.mp hq with rfl | ⟨c, hc, hqc⟩
    · exact List.Sublist.refl _
    · have hcp : c.preorder.Sublist p.descendants := by
        rw [descendants, List.flatMap_def]
        exact List.sublist_flatten_of_mem (List.mem_map_of_mem hc)
      rw [preorder_eq p]
      exact (ih c hc hqc).trans (hcp.cons p)

theorem descendants_sublist {p q : Place} (hq : q ∈ p.preorder) :
    q.descendants.Sublist p.preorder := by
  refine List.Sublist.trans ?_ (preorder_sublist hq)
  rw [preorder_eq q]
  exact List.sublist_cons_self _ _

theorem mem_ancestors_of_mem_descendants {p q : Place} (h : q ∈ p.descendants) :
    p ∈ q.ancestors := by
  induction p using children_induction with
  | step p ih =>
    obtain ⟨c, hc, hq⟩ := List.mem_flatMap.mp h
    have hpc : p ∈ c.ancestors := by rw [ancestors_of_mem_children hc]; exact List.mem_cons_self
    rw [preorder_eq] at hq
    rcases List.mem_cons.mp hq with rfl | hq
    · exact hpc
    · exact ancestors_trans hpc (ih c hc hq)

theorem eq_or_mem_ancestors_of_mem_preorder {p q : Place} (h : q ∈ p.preorder) :
    q = p ∨ p ∈ q.ancestors := by
  rw [preorder_eq, List.mem_cons] at h
  exact h.imp_right mem_ancestors_of_mem_descendants

theorem depth_le_of_mem_preorder {p q : Place} (h : q ∈ p.preorder) : p.depth ≤ q.depth := by
  rcases eq_or_mem_ancestors_of_mem_preorder h with rfl | habove
  · exact Nat.le_refl _
  · exact Nat.le_of_lt (depth_lt_of_mem_ancestors habove)

/-- No place is listed from two children of the same place. -/
theorem eq_of_mem_preorder {p c d q : Place} (hc : c ∈ p.children) (hd : d ∈ p.children)
    (hcq : q ∈ c.preorder) (hdq : q ∈ d.preorder) : c = d := by
  have hdepth : c.depth = d.depth := by
    rw [depth_of_mem_children hc, depth_of_mem_children hd]
  have hle := depth_le_of_mem_preorder hcq
  rcases eq_or_mem_ancestors_of_mem_preorder hcq with rfl | hcabove
  · rcases eq_or_mem_ancestors_of_mem_preorder hdq with heq | hdabove
    · exact heq
    · have := depth_lt_of_mem_ancestors hdabove
      omega
  · rcases eq_or_mem_ancestors_of_mem_preorder hdq with rfl | hdabove
    · have := depth_lt_of_mem_ancestors hcabove
      omega
    · exact eq_of_depth_eq hcabove hdabove hdepth

/-- Whoever is above a place listed from `r` is above `r`, or listed from `r` and lists the
place. -/
theorem mem_preorder_of_mem_ancestors {r p q : Place} (hq : q ∈ r.preorder)
    (hp : p ∈ q.ancestors) : p ∈ r.ancestors ∨ p ∈ r.preorder ∧ q ∈ p.descendants := by
  induction r using children_induction with
  | step r ih =>
    rcases mem_preorder_iff.mp hq with rfl | ⟨c, hc, hqc⟩
    · exact .inl hp
    · rcases ih c hc hqc with hpc | ⟨hpc, hqp⟩
      · rw [ancestors_of_mem_children hc] at hpc
        rcases List.mem_cons.mp hpc with rfl | hpr
        · exact .inr ⟨mem_preorder_self p, List.mem_flatMap.mpr ⟨c, hc, hqc⟩⟩
        · exact .inl hpr
      · exact .inr ⟨mem_preorder_iff.mpr (.inr ⟨c, hc, hpc⟩), hqp⟩

theorem mem_places_of_mem_children {tree : Node} {p c : Place} (hp : p ∈ tree.places)
    (hc : c ∈ p.children) : c ∈ tree.places :=
  preorder_trans hp (mem_preorder_of_mem_children hc)

theorem mem_places_of_mem_ancestors {tree : Node} {p q : Place} (hq : q ∈ tree.places)
    (hp : p ∈ q.ancestors) : p ∈ tree.places := by
  rcases mem_preorder_of_mem_ancestors hq hp with h | ⟨h, _⟩
  · cases h
  · exact h

/-- In a tree, the places listed below a place are those that it is above. -/
theorem mem_descendants_iff {tree : Node} {p q : Place} (hp : p ∈ tree.places) :
    q ∈ p.descendants ↔ q ∈ tree.places ∧ p ∈ q.ancestors := by
  constructor
  · intro hq
    refine ⟨preorder_trans hp ?_, mem_ancestors_of_mem_descendants hq⟩
    rw [preorder_eq]
    exact List.mem_cons_of_mem _ hq
  · intro hyp
    obtain ⟨hq, ha⟩ := hyp
    rcases mem_preorder_of_mem_ancestors hq ha with h | ⟨_, h⟩
    · cases h
    · exact h

/-- The places of some children of `p` number on from the nodes that come before them. -/
theorem map_number_childrenFrom (p : Place) (i : Nat) (before ns : List Node)
    (hp : p.node.children = before ++ ns) (hi : before.length = i)
    (ih : ∀ c ∈ p.childrenFrom i ns, c.preorder.map number = List.range' c.number c.node.size) :
    ((p.childrenFrom i ns).flatMap preorder).map number =
      List.range' (p.number + 1 + Node.totalSize before) (Node.totalSize ns) := by
  induction ns generalizing i before with
  | nil => rfl
  | cons n ns ihns =>
    have hn : (child p i n).number = p.number + 1 + Node.totalSize before := by
      rw [number, hp, ← hi, List.take_left]
    have hb : Node.totalSize (before ++ [n]) = Node.totalSize before + n.size := by
      rw [Node.totalSize_append]
      simp only [Node.totalSize, Nat.add_zero]
    have hrest := ihns (i + 1) (before ++ [n]) (by simp [hp]) (by simp [hi])
      fun c hc => ih c (List.mem_cons_of_mem _ hc)
    rw [childrenFrom, List.flatMap_cons, List.map_append, ih _ List.mem_cons_self, hrest, hn, hb,
      Node.totalSize, node, ← Nat.add_assoc, List.range'_append_1]

/-- The places listed from `p` bear consecutive numbers. -/
theorem map_number_preorder (p : Place) :
    p.preorder.map number = List.range' p.number p.node.size := by
  induction p using children_induction with
  | step p ih =>
    have hc : p.descendants.map number =
        List.range' (p.number + 1 + Node.totalSize []) (Node.totalSize p.node.children) :=
      map_number_childrenFrom p 0 [] p.node.children rfl rfl ih
    have hs : p.node.size = Node.totalSize p.node.children + 1 := by
      rcases p.node with ⟨l, cs⟩
      exact Nat.add_comm _ _
    rw [preorder_eq, List.map_cons, hc, hs, List.range'_succ]
    rfl

theorem nodup_preorder (p : Place) : p.preorder.Nodup := by
  refine List.Nodup.of_map number ?_
  rw [map_number_preorder]
  exact List.nodup_range'

end Place

namespace Node

/-- The place with a number in a tree, its top if there is none. -/
def placeAt (tree : Node) (i : Nat) : Place := tree.places.getD i (.root tree)

theorem placeAt_mem (tree : Node) (i : Nat) : tree.placeAt i ∈ tree.places := by
  rw [placeAt, List.getD_eq_getElem?_getD]
  cases h : tree.places[i]? with
  | none => exact Place.mem_preorder_self _
  | some p => exact List.mem_of_getElem? h

end Node

end QueryLint.Code
