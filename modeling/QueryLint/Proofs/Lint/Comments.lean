import QueryLint.Proofs.Lint.Trimming

/-!
# Comments are transparent

Taking the comments out of a tree is a way to trim it. Nothing is opened, so even the suggested texts
stay the same, and linting comes to exactly the same findings.
-/
namespace QueryLint.Code

namespace Node

mutual

/-- A tree without the comments below its top. -/
def withoutComments : Node → Node
  | mk l cs => mk l (withoutCommentsAmong cs)

/-- Some trees without the comments among and in them. -/
def withoutCommentsAmong : List Node → List Node
  | [] => []
  | n :: ns =>
    if n.kind = Kind.comment then withoutCommentsAmong ns
    else n.withoutComments :: withoutCommentsAmong ns

end

/-- Whether comments have nothing below them and play no part. -/
def PlainComments (tree : Node) : Prop :=
  ∀ p ∈ tree.places, p.kind = Kind.comment → p.node.children.isEmpty ∧ p.label.role = none

instance (tree : Node) : Decidable tree.PlainComments :=
  inferInstanceAs (Decidable (∀ _ ∈ _, _ → _))

theorem label_withoutComments (n : Node) : n.withoutComments.label = n.label := by
  cases n with
  | mk l cs => rw [withoutComments, label, label]

theorem children_withoutComments (n : Node) :
    n.withoutComments.children = withoutCommentsAmong n.children := by
  cases n with
  | mk l cs => rw [withoutComments, children, children]

end Node

namespace Place

/-- Where a place that is no comment is when the comments are taken out. -/
def withoutComments : Place → Place
  | root n => root n.withoutComments
  | child p i n =>
    child p.withoutComments ((p.node.children.take i).countP (·.kind ≠ Kind.comment))
      n.withoutComments

theorem node_withoutComments (p : Place) : p.withoutComments.node = p.node.withoutComments := by
  cases p <;> rfl

theorem label_withoutComments (p : Place) : p.withoutComments.label = p.label := by
  rw [label, label, node_withoutComments, Node.label_withoutComments]

/-- The children that are no comments stay in their order, each behind those before it. -/
theorem childrenFrom_withoutComments (p : Place) (before ns : List Node)
    (h : p.node.children = before ++ ns) :
    p.withoutComments.childrenFrom (before.countP (·.kind ≠ Kind.comment))
        (Node.withoutCommentsAmong ns) =
      ((p.childrenFrom before.length ns).filter (·.kind ≠ Kind.comment)).map withoutComments := by
  -- by induction on the children that follow, with those before them to count from
  induction ns generalizing before with
  | nil => rfl
  | cons n ns ih =>
    have hrest := ih (before ++ [n]) (by simp [h])
    have hkind : (child p before.length n).kind = n.kind := rfl
    rw [List.countP_append, List.length_append, List.length_singleton] at hrest
    rw [Node.withoutCommentsAmong, childrenFrom]
    by_cases hcomment : n.kind = Kind.comment
    · rw [if_pos hcomment, List.filter_cons_of_neg (by simpa [hkind] using hcomment), ← hrest]
      simp [hcomment]
    · rw [if_neg hcomment, List.filter_cons_of_pos (by simpa [hkind] using hcomment), List.map_cons,
        ← hrest, childrenFrom, withoutComments, h, List.take_left]
      simp [hcomment]

theorem children_withoutComments (p : Place) :
    p.withoutComments.children =
      (p.children.filter (·.kind ≠ Kind.comment)).map withoutComments := by
  rw [children, node_withoutComments, Node.children_withoutComments]
  exact childrenFrom_withoutComments p [] p.node.children rfl

/-- What becomes of a place when the comments are taken out. -/
def commentFate (p : Place) : Fate := if p.kind = Kind.comment then .dropped else .kept

theorem commentFate_eq_dropped_iff {p : Place} :
    commentFate p = .dropped ↔ p.kind = Kind.comment := by
  unfold commentFate
  split_ifs with h <;> simp [h]

theorem commentFate_ne_opened (p : Place) : commentFate p ≠ .opened := by
  unfold commentFate
  split_ifs <;> decide

end Place

/-- Taking the comments out of a tree. -/
def Source.trimComments (source : Source) (hplain : source.tree.PlainComments)
    (hroot : source.tree.kind ≠ Kind.comment) :
    Trimming source { source with tree := source.tree.withoutComments } where
  path_eq := rfl
  text_eq := rfl
  fate := Place.commentFate
  place := Place.withoutComments
  fate_root := mt Place.commentFate_eq_dropped_iff.mp hroot
  place_root := rfl
  label_eq p _ _ := by rw [Place.label_withoutComments]
  children_eq p _ _ := by
    rw [Place.children_withoutComments]
    congr 1
    refine List.filter_congr fun c _ => decide_eq_decide.mpr ?_
    exact not_congr Place.commentFate_eq_dropped_iff.symm
  role_eq p hp _ c hc := by
    split_ifs with hfate
    · have hkind := Place.commentFate_eq_dropped_iff.mp hfate
      exact (hplain c (Place.mem_places_of_mem_children hp hc) hkind).2
    · rw [Place.label_withoutComments]
  trivia p hp hfate := by
    have hkind := Place.commentFate_eq_dropped_iff.mp hfate
    refine ⟨?_, ?_, fun _ => hkind⟩
    · rw [Place.children, List.isEmpty_iff.mp (hplain p hp hkind).1]
      rfl
    · rw [Place.isIdentifier, hkind]
      decide
  opened p _ hfate := absurd hfate (Place.commentFate_ne_opened p)

end QueryLint.Code

namespace QueryLint.Lint

open QueryLint.Code

theorem isView_trimComments {source : Source} (hplain : source.tree.PlainComments)
    (hroot : source.tree.kind ≠ Kind.comment) :
    (source.trimComments hplain hroot).IsView id := by
  have hkept : ∀ p, (source.trimComments hplain hroot).Stays p →
      (source.trimComments hplain hroot).Keeps p := fun p hp =>
    hp.cases.resolve_right fun hopened => Place.commentFate_ne_opened p hopened.2
  exact ⟨fun _ => rfl, fun _ => rfl, fun _ _ => rfl,
    fun _ _ => Trimming.overlooks_of_texts (fun p hp => (hkept p hp).textOf) _⟩

/-- Taking the comments out of a tree changes nothing in what linting comes to. -/
theorem lintSource_withoutComments {source : Source} (hplain : source.tree.PlainComments)
    (hroot : source.tree.kind ≠ Kind.comment) (config : Config) (rules : Option (List String)) :
    lintSource { source with tree := source.tree.withoutComments } config rules =
      lintSource source config rules := by
  have hmap := (isView_trimComments hplain hroot).map_lintSource config rules
  have hid : ∀ linted : Except LintError (List Finding), linted.map (List.map id) = linted := by
    intro linted
    cases linted <;> simp [Except.map]
  rwa [hid, hid] at hmap

/-- `await waitFor(/* soon */ () => getByRole(/* all */)) // later` -/
def commented : Source where
  path := "a.js"
  text := "await waitFor(/* soon */ () => getByRole(/* all */)) // later"
  language := .javascript
  tree :=
    .named "program" 0 61 none [
      .named "expression_statement" 0 52 none [
        .named "await_expression" 0 52 none [
          .token "await" 0 5,
          .named "call_expression" 6 52 none [
            .named "identifier" 6 13 (some .function) [],
            .named "arguments" 13 52 (some .arguments) [
              .token "(" 13 14, .named "comment" 14 24 none [],
              .named "arrow_function" 25 51 none [
                .named "formal_parameters" 25 27 (some .parameters) [], .token "=>" 28 30,
                .named "call_expression" 31 51 (some .body) [
                  .named "identifier" 31 40 (some .function) [],
                  .named "arguments" 40 51 (some .arguments) [
                    .token "(" 40 41, .named "comment" 41 50 none [], .token ")" 50 51]]],
              .token ")" 51 52]]]],
      .named "comment" 53 61 none []]

/-- In `commented` there are three comments in and around a wait. -/
theorem lintSource_commented :
    commented.tree.PlainComments ∧ commented.tree.kind ≠ Kind.comment ∧
      commented.tree.withoutComments.places.length + 3 = commented.tree.places.length ∧
      (Rule.PreferFind.waits commented).length = 1 ∧
      lintSource { commented with tree := commented.tree.withoutComments } .default none =
        lintSource commented .default none := by
  have hplain : commented.tree.PlainComments := by decide
  have hroot : commented.tree.kind ≠ Kind.comment := by decide
  exact ⟨hplain, hroot, rfl, rfl, lintSource_withoutComments hplain hroot .default none⟩

end QueryLint.Lint
