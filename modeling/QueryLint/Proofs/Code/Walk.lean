import Mathlib.Data.List.Flatten
import QueryLint.Code.Walk
import QueryLint.Proofs.Code.WellFormed
import QueryLint.Proofs.Related

/-!
# What a walk calls

A walk keeps a stack, but it visits the nodes of a tree in pre-order: the calls it has made and those
that the places on its stack stand for, each with all that is below it, are together the same before and
after each visit, and so is the number of nodes. Merging registrations keeps, for each kind, the listeners
of all of them in order.
-/
namespace QueryLint.Code.ListenerTable

variable {α β : Type}

/-- The calls of a visit to a place. -/
def callsAt (table : ListenerTable α) (p : Place) : List (α × Occasion) :=
  (table.get p.kind).map (·, .visit p)

/-- What a walk has yet to come to: the places on its stack are visited in pre-order. -/
def destination (table : ListenerTable α) (w : Walk α) : Walk α where
  stack := []
  visited := w.visited + sizeOfAll w.stack
  calls := w.calls ++ (w.stack.flatMap Place.preorder).flatMap (callsAt table)

/-- A visit does not change what a walk comes to. -/
theorem destination_visit (table : ListenerTable α) {w : Walk α} {p : Place} {rest : List Place}
    (h : w.stack = p :: rest) : destination table (visit table w p rest) = destination table w := by
  have hvisited : w.visited + 1 + sizeOfAll (p.children ++ rest) =
      w.visited + sizeOfAll (p :: rest) := by
    rw [sizeOfAll_children]
    omega
  have hcalls : callsAt table p ++ ((p.children ++ rest).flatMap Place.preorder).flatMap (callsAt table) =
      ((p :: rest).flatMap Place.preorder).flatMap (callsAt table) := by
    rw [List.flatMap_cons, Place.preorder_eq, Place.descendants, List.cons_append, List.flatMap_cons,
      List.flatMap_append]
  rw [destination, destination, visit, push_reverse, h, hvisited, ← hcalls, List.append_assoc]
  rfl

/-- A walk goes on until it has come there. The induction is on its visits. -/
theorem walkOn_eq (table : ListenerTable α) (w : Walk α) : walkOn table w = destination table w := by
  fun_induction walkOn table w with
  | case1 w h =>
    obtain ⟨stack, visited, calls⟩ := w
    cases h
    simp [destination, sizeOfAll, Node.totalSize]
  | case2 w p rest h ih => rw [ih, destination_visit table h]

/-- A walk visits each node of a tree once, in pre-order, and then tells that it is at its end. -/
theorem walk_eq (table : ListenerTable α) (tree : Node) :
    table.walk tree =
      { stack := []
        visited := tree.size
        calls :=
          tree.places.flatMap (fun p => (table.get p.kind).map (·, .visit p)) ++
            (table.get programExit).map (·, .finish) } := by
  have hcalls : callsAt table = fun p => (table.get p.kind).map (·, .visit p) := rfl
  simp [walk, walkOn_eq, destination, sizeOfAll, Node.totalSize, Node.places, Place.node, hcalls]

/-- The listeners that a registration has for a kind. -/
def listenersFor (registration : Registration α) (key : Kind) : List α :=
  (registration.filter (·.1 = key)).map (·.2)

theorem listenersFor_cons (entry : Kind × α) (registration : Registration α) (key : Kind) :
    listenersFor (entry :: registration) key =
      (if entry.1 = key then [entry.2] else []) ++ listenersFor registration key := by
  by_cases h : entry.1 = key <;> simp [listenersFor, h]

theorem listenersFor_map (f : α → β) (registration : Registration α) (key : Kind) :
    listenersFor (registration.map fun entry => (entry.1, f entry.2)) key =
      (listenersFor registration key).map f := by
  simp only [listenersFor, List.filter_map, List.map_map, Function.comp_def]

theorem get_addAll (table : ListenerTable α) (registration : Registration α) (key : Kind) :
    (registration.foldl (fun table entry => add table entry.1 entry.2) table).get key =
      table.get key ++ listenersFor registration key := by
  induction registration generalizing table with
  | nil => simp [listenersFor]
  | cons entry registration ih =>
    rw [List.foldl_cons, ih, get_add, listenersFor_cons, ← List.append_assoc]
    by_cases h : entry.1 = key
    · rw [if_pos h, if_pos h.symm]
    · rw [if_neg h, if_neg (Ne.symm h), List.append_nil]

theorem get_merge (registrations : List (Registration α)) (key : Kind) :
    (merge registrations).get key = registrations.flatMap (listenersFor · key) := by
  suffices h : ∀ table : ListenerTable α,
      (registrations.foldl (fun table registration =>
        registration.foldl (fun table entry => add table entry.1 entry.2) table) table).get key =
        table.get key ++ registrations.flatMap (listenersFor · key) by
    rw [merge, h, get_nil, List.nil_append]
  induction registrations with
  | nil => simp
  | cons registration registrations ih =>
    intro table
    rw [List.foldl_cons, ih, get_addAll, List.flatMap_cons, List.append_assoc]

theorem calls_merge (registrations : List (Registration α)) (tree : Node) :
    (merge registrations).calls tree =
      tree.places.flatMap (fun p =>
        (registrations.flatMap (listenersFor · p.kind)).map (·, .visit p)) ++
        (registrations.flatMap (listenersFor · programExit)).map (·, .finish) := by
  simp only [calls, walk_eq, get_merge]

/-- With one listener for each kind at most, a registration has it for the kind or none. -/
theorem listenersFor_eq_lookup {registration : Registration α} (h : (registration.map (·.1)).Nodup)
    (key : Kind) : listenersFor registration key = (registration.lookup key).toList := by
  induction registration with
  | nil => rfl
  | cons entry registration ih =>
    obtain ⟨k, listener⟩ := entry
    rw [List.map_cons, List.nodup_cons] at h
    rw [listenersFor_cons, ih h.2, List.lookup_cons]
    by_cases hk : k = key
    · subst hk
      simp [lookup_eq_none_iff_notMem.mpr h.1]
    · have hne : (key == k) = false := beq_eq_false_iff_ne.mpr (Ne.symm hk)
      simp [hk, hne]

/-- A walk with merged registrations calls, for each node in pre-order, the listener of every
registration that has one for its kind, in the order of the registrations, and after all nodes those for
the end. It counts the nodes, and comes to its end. -/
theorem walk_merge {registrations : List (Registration α)}
    (h : ∀ registration ∈ registrations, (registration.map (·.1)).Nodup) (tree : Node) :
    (merge registrations).walk tree =
      { stack := []
        visited := tree.size
        calls :=
          tree.places.flatMap (fun p =>
            (registrations.filterMap (·.lookup p.kind)).map (·, .visit p)) ++
          (registrations.filterMap (·.lookup programExit)).map (·, .finish) } := by
  have hlisteners : ∀ key, (merge registrations).get key = registrations.filterMap (·.lookup key) := by
    intro key
    rw [get_merge, List.filterMap_eq_flatMap_toList]
    exact List.flatMap_congr fun registration hmem => listenersFor_eq_lookup (h registration hmem) key
  simp only [walk_eq, hlisteners]

/-- The tree of `f(g, h())`. -/
def callInCall : Node :=
  .named "program" 0 9 none [
    .named "call_expression" 0 9 none [
      .named "identifier" 0 1 (some .function) [],
      .named "arguments" 1 9 (some .arguments) [
        .named "identifier" 2 3 none [],
        .named "call_expression" 5 8 none [
          .named "identifier" 5 6 (some .function) [],
          .named "arguments" 6 8 (some .arguments) []]]]]

/-- Two registrations, both for calls and for the end, and one of them for names as well. -/
def sharedKinds : List (Registration Nat) :=
  [[("call_expression", 1), ("program:exit", 2)],
   [("program:exit", 3), ("identifier", 4), ("call_expression", 5)]]

/-- In `f(g, h())` the outer call comes first, and `f` and `g` before the call of `h`. -/
theorem walk_merge_callInCall :
    (∀ registration ∈ sharedKinds, (registration.map (·.1)).Nodup) ∧
      ((merge sharedKinds).walk callInCall).stack = [] ∧
      ((merge sharedKinds).walk callInCall).visited = 8 ∧
      ((merge sharedKinds).walk callInCall).calls.map (fun call =>
          (call.1, match call.2 with | .visit p => some p.number | .finish => none)) =
        [(1, some 1), (5, some 1), (4, some 2), (4, some 4), (1, some 5), (5, some 5), (4, some 6),
          (2, none), (3, none)] := by
  have hkeys : ∀ registration ∈ sharedKinds, (registration.map (·.1)).Nodup := by decide
  rw [walk_merge hkeys callInCall]
  exact ⟨hkeys, rfl, rfl, by decide⟩

end QueryLint.Code.ListenerTable
