import QueryLint.Code.Node

/-!
# Places in a syntax tree

A place is a node together with the way down to it from the root: its parent's place and its
position among the children. So one can go up from a place as well as down, and two nodes that
look alike at different places are told apart.

`preorder` lists the places at and below a place, parents before children and children in source
order.
-/
namespace QueryLint.Code

/-- A node where it stands in its tree. -/
inductive Place where
  | root (node : Node)
  | child (parent : Place) (index : Nat) (node : Node)

namespace Place

def node : Place → Node
  | root n => n
  | child _ _ n => n

def parent? : Place → Option Place
  | root _ => none
  | child p _ _ => some p

def index? : Place → Option Nat
  | root _ => none
  | child _ i _ => some i

/-- The positions among the children on the way down from the root. -/
def path : Place → List Nat
  | root _ => []
  | child p i _ => p.path ++ [i]

def label (p : Place) : Label := p.node.label

def kind (p : Place) : Kind := p.label.kind

/-- The offset of the first byte. -/
def start (p : Place) : Nat := p.label.start

/-- The offset after the last byte. -/
def stop (p : Place) : Nat := p.label.stop

/-- The places of some children of `p`, the first of them at position `i`. -/
def childrenFrom (p : Place) (i : Nat) : List Node → List Place
  | [] => []
  | n :: ns => child p i n :: childrenFrom p (i + 1) ns

def children (p : Place) : List Place := p.childrenFrom 0 p.node.children

def namedChildren (p : Place) : List Place := p.children.filter (·.label.isNamed)

/-- The named children other than comments. -/
def parts (p : Place) : List Place := p.namedChildren.filter (·.kind ≠ Kind.comment)

def childAs (p : Place) (role : Role) : Option Place :=
  p.children.find? (·.label.role = some role)

/-- The place's number: how many nodes come before it in pre-order. -/
def number : Place → Nat
  | root _ => 0
  | child p i _ => p.number + 1 + Node.totalSize (p.node.children.take i)

/-- The places above, from the parent up to the root. -/
def ancestors : Place → List Place
  | root _ => []
  | child p _ _ => p :: p.ancestors

theorem map_node_childrenFrom (p : Place) (i : Nat) (ns : List Node) :
    (p.childrenFrom i ns).map node = ns := by
  induction ns generalizing i with
  | nil => rfl
  | cons n ns ih => rw [childrenFrom, List.map_cons, ih, node]

theorem map_node_children (p : Place) : p.children.map node = p.node.children :=
  map_node_childrenFrom p 0 p.node.children

theorem childrenFrom_spec {p c : Place} {i : Nat} {ns : List Node} (h : c ∈ p.childrenFrom i ns) :
    ∃ j n, c = child p j n ∧ n ∈ ns := by
  induction ns generalizing i with
  | nil => cases h
  | cons n ns ih =>
    cases h with
    | head => exact ⟨i, n, rfl, List.mem_cons_self⟩
    | tail _ h =>
      obtain ⟨j, m, hc, hm⟩ := ih h
      exact ⟨j, m, hc, List.mem_cons_of_mem _ hm⟩

/-- Going up from a child leads back. -/
theorem parent?_of_mem_children {p c : Place} (h : c ∈ p.children) : c.parent? = some p := by
  obtain ⟨j, n, rfl, _⟩ := childrenFrom_spec h
  rfl

theorem node_mem_of_mem_children {p c : Place} (h : c ∈ p.children) :
    c.node ∈ p.node.children := by
  obtain ⟨j, n, rfl, hn⟩ := childrenFrom_spec h
  exact hn

/-- Going down makes the tree smaller. -/
theorem size_lt_of_mem_children {p c : Place} (h : c ∈ p.children) :
    c.node.size < p.node.size :=
  Node.size_lt_of_mem_children (node_mem_of_mem_children h)

theorem parts_eq_filter (p : Place) :
    p.parts = p.children.filter fun c => c.kind ≠ Kind.comment && c.label.isNamed := by
  rw [parts, namedChildren, List.filter_filter]

theorem mem_parts_iff {p c : Place} :
    c ∈ p.parts ↔ c ∈ p.children ∧ c.kind ≠ Kind.comment ∧ c.label.isNamed := by
  rw [parts_eq_filter, List.mem_filter, Bool.and_eq_true, decide_eq_true_eq]

theorem mem_children_of_mem_parts {p c : Place} (h : c ∈ p.parts) : c ∈ p.children :=
  (mem_parts_iff.mp h).1

theorem mem_children_of_childAs {p c : Place} {role : Role} (h : p.childAs role = some c) :
    c ∈ p.children :=
  List.mem_of_find?_eq_some h

mutual

/-- The places at and below `here`, whose node is the last argument. -/
def preorderNode (here : Place) : Node → List Place
  | .mk _ cs => here :: preorderNodes here 0 cs

/-- The places at and below some children of `parent`, the first at position `i`. -/
def preorderNodes (parent : Place) (i : Nat) : List Node → List Place
  | [] => []
  | n :: ns => preorderNode (.child parent i n) n ++ preorderNodes parent (i + 1) ns

end

/-- The places at and below `p`, in pre-order. -/
def preorder (p : Place) : List Place := preorderNode p p.node

end Place

def Node.places (root : Node) : List Place := (Place.root root).preorder

end QueryLint.Code
