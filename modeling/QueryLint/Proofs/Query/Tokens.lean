import QueryLint.Proofs.Code.Tokens
import QueryLint.Proofs.Query.Waits
import QueryLint.Query.CallSite

/-!
# What is kept of a query

The call that is suggested in place of a wait is made of the object of the query, the dot behind it and
the arguments, each as it is written. What else there is in the query is lost: besides the name of the
method, parentheses and the punctuation of the arguments, which are not missed, these are the sign of an
optional chain, type arguments, and a template in place of a list of arguments.
-/
namespace QueryLint.Query

open QueryLint.Code QueryLint.Code.Place QueryLint.Text

/-- The dot of a member expression: the first of its children that is spelled so. -/
def dot? (source : Source) (member : Place) : Option Place :=
  member.children.find? (source.textOf · = ".")

/-- The object of what a query calls, and the dot behind it. -/
def objectParts (source : Source) (callee : Place) : List Place :=
  match callee.object? with
  | some object => object :: (dot? source callee).toList
  | none => []

/-- The parts of a query that are copied. -/
def copiedParts (source : Source) (q : Place) : List Place :=
  q.callee?.toList.flatMap (objectParts source) ++ q.callArguments

/-- The tokens of a query that are copied. -/
def copiedTokens (source : Source) (q : Place) : List Place := (copiedParts source q).flatMap tokens

/-- A token of a query that another call of the same form can do without: the name of the method,
parentheses around what is called or around its object, or punctuation between the arguments. -/
inductive IsIncidental (q t : Place) : Prop where
  | method {callee : Place} (hcallee : q.callee? = some callee) (hname : calledName? callee = some t)
  | parenthesis {callee inner outer : Place} (hcallee : q.callee? = some callee)
      (hinner : inner = callee ∨ callee.object? = some inner) (hbelow : q ∈ outer.ancestors)
      (habove : outer ∈ inner.ancestors) (houter : outer.kind = Kind.parenthesized)
      (hparent : t.parent? = some outer) (hkind : t.kind ∈ ["(", ")"])
  | punctuation {list : Place} (hlist : q.childAs .arguments = some list)
      (harguments : list.kind = Kind.arguments) (hparent : t.parent? = some list)
      (hkind : t.kind ∈ ["(", ",", ")"])

/-- Whether a text has in order all tokens of a query that are not incidental. -/
def Keeps (source : Source) (q : Place) (text : String) : Prop :=
  ∀ ts : List Place, ts.Sublist q.tokens → (∀ t ∈ ts, ¬ IsIncidental q t) → InOrder (ts.map source.textOf) text

/-- Whether what is called comes before the arguments, and an object before the dot. -/
structure LinesUp (source : Source) : Prop where
  call : ∀ c ∈ source.tree.places, c.isCall → ∀ function ∈ c.childAs .function,
    ∀ list ∈ c.childAs .arguments, function.number < list.number
  member : ∀ m ∈ source.tree.places, m.isMember → ∀ object ∈ m.childAs .object,
    ∀ dot ∈ dot? source m, object.number < dot.number

variable {source : Source} {q : Place}

/-! ### The parts that are copied occur in order -/

section Copied

variable (spans : source.tree.Spans source.text) (nested : source.tree.Nested)
include spans nested

theorem inOrder_dot {callee : Place} (hcallee : callee ∈ source.tree.places) :
    InOrder (((dot? source callee).toList.flatMap tokens).map source.textOf) "." := by
  cases hdot : dot? source callee with
  | none => exact .nil _
  | some dot =>
    have htext : source.textOf dot = "." := by simpa using List.find?_some hdot
    have hplace := mem_places_of_mem_children hcallee (List.mem_of_find?_eq_some hdot)
    have htokens := inOrder_tokens spans nested hplace
    rw [htext] at htokens
    rwa [Option.toList_some, List.flatMap_cons, List.flatMap_nil, List.append_nil]

theorem inOrder_callArguments (hq : q ∈ source.tree.places) :
    InOrder ((q.callArguments.flatMap tokens).map source.textOf)
      (", ".intercalate (q.callArguments.map source.textOf)) := by
  rw [List.map_flatMap]
  apply InOrder.intercalate
  intro a ha
  obtain ⟨_, list, hlist, _, hargument⟩ := exists_of_mem_callArguments ha
  exact inOrder_tokens spans nested
    (mem_places_of_mem_children (mem_places_of_mem_children hq hlist) hargument)

/-- The suggested call has what it copies in order. -/
theorem inOrder_callText (hq : q ∈ source.tree.places) {method : String} {caller : Option String}
    (hcalls : CallsAtOnce source q method caller) (name : String) :
    InOrder ((copiedTokens source q).map source.textOf)
      (callText caller name (q.callArguments.map source.textOf)) := by
  have harguments := inOrder_callArguments spans nested hq
  cases hcalls with
  | @bare callee hcallee hmethod _ =>
    have hobject : callee.object? = none := by
      rw [object?, if_neg (not_isMember_of_nameOf? hmethod)]
    have hparts : copiedTokens source q = q.callArguments.flatMap tokens := by
      simp [copiedTokens, copiedParts, hcallee, objectParts, hobject]
    rw [hparts]
    exact .append_right (.append_left _ harguments) _
  | @member callee object caller hcallee hobject hcaller _ _ =>
    have hbelow : callee ∈ source.tree.places := by
      obtain ⟨f, hf, _, hunwrap⟩ := exists_function_of_callee? hcallee
      exact preorder_trans (mem_places_of_mem_children hq hf) (mem_preorder_of_unwrap hunwrap)
    have hplace : object ∈ source.tree.places :=
      preorder_trans hbelow (mem_preorder_of_object? hobject)
    have hparts : (copiedTokens source q).map source.textOf =
        object.tokens.map source.textOf ++
          ((dot? source callee).toList.flatMap tokens).map source.textOf ++
          (q.callArguments.flatMap tokens).map source.textOf := by
      simp [copiedTokens, copiedParts, hcallee, objectParts, hobject]
    have hname := inOrder_tokens spans nested hplace
    rw [(nameOf?_eq_some_iff.mp hcaller).2] at hname
    rw [hparts]
    have hdot := inOrder_dot spans nested hbelow
    exact .append_right (.append (.append_right (.append_right (.append hname hdot) _) _) harguments) _

end Copied

/-! ### They stand in the query in this order -/

/-- Of a list without repetitions, a part that another part covers is a part of it. -/
theorem sublist_of_subset {α : Type} {xs ys zs : List α} (hnodup : zs.Nodup) (hx : xs.Sublist zs)
    (hy : ys.Sublist zs) (h : xs ⊆ ys) : xs.Sublist ys := by
  induction zs generalizing xs ys with
  | nil =>
    rw [List.sublist_nil.mp hx]
    exact List.nil_sublist _
  | cons z zs ih =>
    obtain ⟨hz, hnodup⟩ := List.nodup_cons.mp hnodup
    cases hx with
    | cons _ hx =>
      have hnotin : z ∉ xs := fun hmem => hz (hx.subset hmem)
      cases hy with
      | cons _ hy => exact ih hnodup hx hy h
      | @cons_cons ys' _ _ hy =>
        have hcover : xs ⊆ ys' := by
          intro x hxs
          rcases List.mem_cons.mp (h hxs) with rfl | hys
          · exact absurd hxs hnotin
          · exact hys
        exact (ih hnodup hx hy hcover).cons z
    | @cons_cons xs' _ _ hx =>
      cases hy with
      | cons _ hy => exact absurd (hy.subset (h List.mem_cons_self)) hz
      | @cons_cons ys' _ _ hy =>
        have hcover : xs' ⊆ ys' := by
          intro x hxs
          rcases List.mem_cons.mp (h (List.mem_cons_of_mem _ hxs)) with rfl | hys
          · exact absurd (hx.subset hxs) hz
          · exact hys
        exact (ih hnodup hx hy hcover).cons_cons z

theorem not_comment_of_isCall {p : Place} (h : p.isCall) : p.kind ≠ Kind.comment := by
  rw [beq_iff_eq.mp h]
  decide

theorem not_comment_of_isMember {p : Place} (h : p.isMember) : p.kind ≠ Kind.comment := by
  rw [beq_iff_eq.mp h]
  decide

theorem tokens_callArguments_sublist {list : Place} (hlist : q.childAs .arguments = some list) :
    (q.callArguments.flatMap tokens).Sublist list.tokens := by
  simp only [callArguments, hlist]
  split_ifs with _ hkind
  · apply tokens_sublist
    · rw [hkind]
      decide
    · exact List.filter_sublist.trans List.filter_sublist
  · exact List.nil_sublist _
  · exact List.nil_sublist _

section Sequence

variable (lines : LinesUp source)
include lines

theorem tokens_objectParts_sublist {callee : Place} (hplace : callee ∈ source.tree.places) :
    ((objectParts source callee).flatMap tokens).Sublist callee.tokens := by
  unfold objectParts
  cases hobject : callee.object? with
  | none => exact List.nil_sublist _
  | some object =>
    have hmember := isMember_of_object? hobject
    have hkind := not_comment_of_isMember hmember
    obtain ⟨child, hchild, hunwrap⟩ := exists_child_of_object? hobject
    have hin := mem_children_of_childAs hchild
    have hinside := tokens_sublist_of_unwrap hunwrap
    cases hdot : dot? source callee with
    | none =>
      rw [Option.toList_none, List.flatMap_cons, List.flatMap_nil, List.append_nil]
      exact hinside.trans (tokens_sublist_of_mem hkind hin)
    | some dot =>
      have hpair := pair_sublist_children hin (List.mem_of_find?_eq_some hdot)
        (lines.member callee hplace hmember child hchild dot hdot)
      have htokens := tokens_sublist hkind hpair
      rw [List.flatMap_cons] at htokens
      rw [Option.toList_some, List.flatMap_cons]
      exact (hinside.append (List.Sublist.refl _)).trans htokens

/-- What is copied of a query stands in it in the same order. -/
theorem copiedTokens_sublist (hq : q ∈ source.tree.places) {callee : Place}
    (hcallee : q.callee? = some callee) : (copiedTokens source q).Sublist q.tokens := by
  have hcall := isCall_of_callee? hcallee
  have hkind := not_comment_of_isCall hcall
  have hparts : copiedTokens source q =
      (objectParts source callee).flatMap tokens ++ q.callArguments.flatMap tokens := by
    simp [copiedTokens, copiedParts, hcallee]
  rw [callee?, if_pos hcall] at hcallee
  obtain ⟨function, hfunction, hunwrap⟩ := Option.bind_eq_some_iff.mp hcallee
  have hin := mem_children_of_childAs hfunction
  have hplace := preorder_trans (mem_places_of_mem_children hq hin) (mem_preorder_of_unwrap hunwrap)
  have hobject := (tokens_objectParts_sublist lines hplace).trans (tokens_sublist_of_unwrap hunwrap)
  rw [hparts]
  cases hlist : q.childAs .arguments with
  | none =>
    have hnone : q.callArguments = [] := by simp only [callArguments, hlist, ite_self]
    rw [hnone, List.flatMap_nil, List.append_nil]
    exact hobject.trans (tokens_sublist_of_mem hkind hin)
  | some list =>
    have hpair := pair_sublist_children hin (mem_children_of_childAs hlist)
      (lines.call q hq hcall function hfunction list hlist)
    have htokens := tokens_sublist hkind hpair
    rw [List.flatMap_cons, List.flatMap_cons, List.flatMap_nil, List.append_nil] at htokens
    exact (hobject.append (tokens_callArguments_sublist hlist)).trans htokens

end Sequence

end QueryLint.Query
