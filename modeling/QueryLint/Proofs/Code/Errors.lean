import QueryLint.Code.Source
import QueryLint.Proofs.Code.Search

/-!
# Errors in trees

A node that is marked for errors is an error itself or lies above one. So a search of a marked tree finds
an error, and the line of the first error is a line of the text.

The search goes by the marks and stops at what it finds. Where the marks are right it comes to the errors
that lie in no other, as a look at every node would, and it comes to none exactly where the tree has no
mark at its top. A grammar need not mark an error inside an error, and the search does not ask for it.
-/
namespace QueryLint.Code

open Place

/-- Where a tree is marked for errors, there is one: the node itself, or below a child that is marked. -/
def Node.MarksErrors (tree : Node) : Prop :=
  ∀ p ∈ tree.places, p.label.hasError → Source.isFaulty p ∨ ∃ c ∈ p.children, c.label.hasError

instance (tree : Node) : Decidable tree.MarksErrors := inferInstanceAs (Decidable (∀ _ ∈ _, _))

/-- A node is marked for errors exactly if there is an error at or below it. This is not asked of errors
below the top, whose own marks nobody looks at. -/
def Node.MarksExactly (tree : Node) : Prop :=
  ∀ p ∈ tree.places, (Source.isFaulty p → p.parent?.isNone) →
    (p.label.hasError ↔ ∃ q ∈ p.preorder, Source.isFaulty q)

instance (tree : Node) : Decidable tree.MarksExactly :=
  inferInstanceAs (Decidable (∀ _ ∈ _, _ → _))

namespace Source

variable {source : Source}

/-- The search for errors, by recursion on the tree. -/
theorem errors_eq_search (source : Source) : source.errors = source.root.search errorVerdict := by
  rw [errors, searchOn_pure, Id.run_pure, List.flatMap_singleton]

theorem search_errorVerdict_ne_nil (marks : source.tree.MarksErrors) {p : Place}
    (hp : p ∈ source.tree.places) (herror : p.label.hasError) : p.search errorVerdict ≠ [] := by
  rw [search_eq, errorVerdict]
  by_cases hfaulty : isFaulty p
  · simp [hfaulty]
  · obtain ⟨c, hc, hbelow⟩ := (marks p hp herror).resolve_left hfaulty
    have hfound := search_errorVerdict_ne_nil marks (mem_places_of_mem_children hp hc) hbelow
    simp only [hfaulty, herror, Bool.false_eq_true, if_true, if_false]
    exact fun hnil => hfound (List.flatMap_eq_nil_iff.mp hnil c hc)
  termination_by p.node.size
  decreasing_by exact size_lt_of_mem_children hc

/-- A source with errors has a first one, on a line of its text. -/
theorem one_le_firstErrorLine (marks : source.tree.MarksErrors) (h : source.hasErrors) :
    1 ≤ source.firstErrorLine := by
  have herrors : source.errors ≠ [] := by
    rw [errors_eq_search]
    exact search_errorVerdict_ne_nil marks (mem_preorder_self _) h
  obtain ⟨p, rest, hp⟩ := List.exists_cons_of_ne_nil herrors
  rw [firstErrorLine, hp]
  exact Nat.succ_pos _

/-! ### The outermost errors -/

/-- Whether a node is an error that lies in no other. -/
def isOutermostError (p : Place) : Bool := isFaulty p && p.ancestors.all (!isFaulty ·)

variable (marks : source.tree.MarksExactly)
include marks

theorem hasError_iff {p : Place} (hp : p ∈ source.tree.places) (hsound : isFaulty p = false) :
    p.label.hasError ↔ ∃ q ∈ p.descendants, isFaulty q := by
  rw [marks p hp fun hfaulty => absurd hfaulty (by simp [hsound]), preorder_eq]
  simp [hsound]

/-- The search for errors comes to the outermost errors, each once and in pre-order. -/
theorem errors_eq_filter : source.errors = source.tree.places.filter isOutermostError := by
  rw [errors_eq_search]
  apply search_eq_filter
  intro q hq
  have htake : errorVerdict q = .take ↔ isFaulty q := by
    unfold errorVerdict
    split_ifs <;> simp_all
  -- above an error, going on is a matter of not being one
  have hbelow : isFaulty q → ∀ a ∈ q.ancestors, (errorVerdict a = .below ↔ isFaulty a = false) := by
    intro hfaulty a ha
    have hap := mem_places_of_mem_ancestors hq ha
    unfold errorVerdict
    cases hsound : isFaulty a with
    | true => simp
    | false =>
      have herror : a.label.hasError := (hasError_iff marks hap hsound).mpr
        ⟨q, (mem_descendants_iff hap).mpr ⟨hq, ha⟩, hfaulty⟩
      simp [herror]
  change q ∈ source.root.search errorVerdict ↔ _
  rw [mem_search_iff, htake, isOutermostError, Bool.and_eq_true, List.all_eq_true]
  constructor
  · intro hreported
    obtain ⟨_, hfaulty, habove⟩ := hreported
    refine ⟨hfaulty, fun a ha => ?_⟩
    rw [(hbelow hfaulty a ha).mp (habove a ha (Nat.zero_le _))]
    rfl
  · intro houtermost
    obtain ⟨hfaulty, habove⟩ := houtermost
    refine ⟨hq, hfaulty, fun a ha _ => (hbelow hfaulty a ha).mpr ?_⟩
    simpa using habove a ha

/-- At and below a place, the first error that the search comes to is the first error of all. -/
theorem head?_search_errorVerdict {p : Place} (hp : p ∈ source.tree.places) :
    (p.search errorVerdict).head? = p.preorder.find? isFaulty := by
  induction p using children_induction with
  | step p ih =>
    rw [search_eq, preorder_eq, errorVerdict]
    cases hsound : isFaulty p with
    | true => simp [hsound]
    | false =>
      rw [List.find?_cons_of_neg (by simp [hsound])]
      by_cases herror : p.label.hasError
      · have hchildren : (p.children.map fun c => (c.search errorVerdict).head?) =
            p.children.map fun c => c.preorder.find? isFaulty :=
          List.map_congr_left fun c hc => ih c hc (mem_places_of_mem_children hp hc)
        have hfirst := congrArg (List.findSome? id) hchildren
        simpa [herror, descendants, List.head?_flatMap, List.find?_flatMap, List.findSome?_map,
          Function.comp_def] using hfirst
      · have hnone : p.descendants.find? isFaulty = none := by
          apply List.find?_eq_none.mpr
          intro q hq hfaulty
          exact herror ((hasError_iff marks hp hsound).mpr ⟨q, hq, hfaulty⟩)
        simp [herror, hnone]

/-- The first of the errors is the first node that is one. -/
theorem head?_errors : source.errors.head? = source.tree.places.find? isFaulty := by
  rw [errors_eq_search]
  exact head?_search_errorVerdict marks (mem_preorder_self _)

/-- The search comes to nothing exactly if the tree is not marked at its top. -/
theorem errors_eq_nil_iff : source.errors = [] ↔ source.hasErrors = false := by
  rw [← List.head?_eq_none_iff, head?_errors marks, List.find?_eq_none, ← Bool.not_eq_true,
    hasErrors]
  change _ ↔ ¬ (Place.root source.tree).label.hasError
  rw [marks _ (mem_preorder_self _) fun _ => rfl]
  simp [Node.places]

/-- With errors, the line of the first one is that of the first node that is one. -/
theorem firstErrorLine_eq (h : source.hasErrors) :
    ∃ p, source.tree.places.find? isFaulty = some p ∧ source.errors.head? = some p ∧
      source.firstErrorLine = (source.startOf p).row + 1 := by
  have hne : source.errors ≠ [] := by
    rw [ne_eq, errors_eq_nil_iff marks, h]
    decide
  obtain ⟨p, rest, hp⟩ := List.exists_cons_of_ne_nil hne
  have hhead : source.errors.head? = some p := by rw [hp]; rfl
  refine ⟨p, (head?_errors marks).symm.trans hhead, hhead, ?_⟩
  rw [firstErrorLine, hp]

end Source

end QueryLint.Code
