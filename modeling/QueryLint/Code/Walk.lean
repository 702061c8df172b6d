import QueryLint.Code.Place

/-!
# Walks with listeners

Listeners are registered under the kinds of node they want to see, or for the end of the walk.
Several registrations are merged into one table, and a single walk visits the nodes of a tree one
after the other, calls every listener for the kind of the node it visits in the order of
registration, and at the end every listener for the end. The walk is given as the list of its calls.

A walk keeps the places it has yet to visit on a stack and puts the children of each place it visits
on top, so no tree is too deep for it. Each visit takes one node off those that are left.
-/
namespace QueryLint.Code

/-- The key that stands for the end of a walk. -/
def programExit : Kind := "program:exit"

/-- What a listener was called for. -/
inductive Occasion where
  | visit (place : Place)
  | finish

/-- How far a walk has come. -/
structure Walk (α : Type) where
  /-- The places still to visit, the next one first. -/
  stack : List Place
  /-- The number of places visited. -/
  visited : Nat
  /-- The calls made so far. -/
  calls : List (α × Occasion)

/-- A stack after some places were put on it in turn, so that the last of them is on top. -/
def push (stack places : List Place) : List Place :=
  places.foldl (fun stack p => p :: stack) stack

/-- What is put on a stack from the last to the first lies there in its order. -/
theorem push_reverse (stack places : List Place) : push stack places.reverse = places ++ stack := by
  rw [push, List.foldl_reverse]
  induction places with
  | nil => rfl
  | cons p places ih => rw [List.foldr_cons, ih, List.cons_append]

/-- The number of nodes at and below some places. -/
def sizeOfAll (places : List Place) : Nat := Node.totalSize (places.map Place.node)

/-- A place counts for one more than its children. -/
theorem sizeOfAll_children (p : Place) (rest : List Place) :
    sizeOfAll (p :: rest) = sizeOfAll (p.children ++ rest) + 1 := by
  have hsize : p.node.size = 1 + Node.totalSize p.node.children := by
    cases p.node with
    | mk l cs => rfl
  rw [sizeOfAll, sizeOfAll, List.map_cons, Node.totalSize, List.map_append,
    Place.map_node_children, Node.totalSize_append, hsize]
  omega

theorem sizeOfAll_lt_cons (p : Place) (rest : List Place) :
    sizeOfAll rest < sizeOfAll (p :: rest) := by
  have happend : sizeOfAll (p.children ++ rest) = sizeOfAll p.children + sizeOfAll rest := by
    rw [sizeOfAll, List.map_append, Node.totalSize_append]
    rfl
  rw [sizeOfAll_children, happend]
  omega

/-- Listeners by the kind of node they want to see, each kind at most once. -/
abbrev Registration (α : Type) := List (Kind × α)

/-- The listeners for each kind, in the order of registration. -/
abbrev ListenerTable (α : Type) := List (Kind × List α)

namespace ListenerTable

variable {α : Type}

def get (table : ListenerTable α) (key : Kind) : List α := (table.lookup key).getD []

/-- The table with one more listener for a kind, behind those that are there. -/
def add (table : ListenerTable α) (key : Kind) (listener : α) : ListenerTable α :=
  match table with
  | [] => [(key, [listener])]
  | (k, ls) :: rest =>
    if k = key then (k, ls ++ [listener]) :: rest else (k, ls) :: add rest key listener

@[simp] theorem get_nil (key : Kind) : get ([] : ListenerTable α) key = [] := rfl

theorem get_cons (k key : Kind) (ls : List α) (rest : ListenerTable α) :
    get ((k, ls) :: rest) key = if key = k then ls else get rest key := by
  by_cases h : key = k
  · simp [get, h]
  · have h' : (key == k) = false := by simp [h]
    simp [get, List.lookup_cons, h', h]

/-- A listener that is added comes last for its kind and changes nothing for the others. -/
@[simp] theorem get_add (table : ListenerTable α) (key k : Kind) (listener : α) :
    (table.add key listener).get k =
      if k = key then table.get k ++ [listener] else table.get k := by
  induction table with
  | nil => by_cases h : k = key <;> simp [add, get_cons, h]
  | cons entry rest ih =>
    obtain ⟨k', ls⟩ := entry
    by_cases hk : k' = key
    · subst hk
      by_cases h : k = k' <;> simp [add, get_cons, h]
    · by_cases h : k = k'
      · subst h
        simp [add, get_cons, hk]
      · simp [add, get_cons, hk, h, ih]

def merge (registrations : List (Registration α)) : ListenerTable α :=
  registrations.foldl (fun table registration =>
    registration.foldl (fun table entry => add table entry.1 entry.2) table) []

/-- The walk after a visit to the place on top of its stack, where `rest` lies below. -/
def visit (table : ListenerTable α) (w : Walk α) (p : Place) (rest : List Place) : Walk α where
  stack := push rest p.children.reverse
  visited := w.visited + 1
  calls := w.calls ++ (table.get p.kind).map (·, .visit p)

/-- The walk once its stack is empty. -/
def walkOn (table : ListenerTable α) (w : Walk α) : Walk α :=
  match _ : w.stack with
  | [] => w
  | p :: rest => walkOn table (visit table w p rest)
  termination_by sizeOfAll w.stack
  decreasing_by
    rw [‹w.stack = p :: rest›, sizeOfAll_children, visit, push_reverse]
    exact Nat.lt_succ_self _

/-- A whole walk through a tree. -/
def walk (table : ListenerTable α) (tree : Node) : Walk α :=
  let w := walkOn table ⟨[.root tree], 0, []⟩
  { w with calls := w.calls ++ (table.get programExit).map (·, .finish) }

/-- The calls of a walk through a tree, in order. -/
def calls (table : ListenerTable α) (tree : Node) : List (α × Occasion) := (table.walk tree).calls

end ListenerTable

end QueryLint.Code
