import QueryLint.Code.Expression
import QueryLint.Proofs.Code.Preorder

/-!
# What an expression is part of

The owners of a place are the places above it that are neither parentheses nor an argument list.
Going up to the owner undoes going down: what stands inside parentheses has the owners of the
parentheses, and what is called is owned by the call.
-/
namespace QueryLint.Code.Place

theorem owners_eq_filter (p : Place) :
    p.owners = p.ancestors.filter (!transparentKinds.contains ·.kind) := by
  induction p with
  | root n => rfl
  | child p i n ih =>
    rw [owners, ancestors_child, List.filter_cons, ih]
    cases transparentKinds.contains p.kind <;> rfl

theorem mem_ancestors_of_owner? {p owner : Place} (h : p.owner? = some owner) : owner ∈ p.ancestors := by
  have howner : owner ∈ p.owners := List.mem_of_mem_head? h
  rw [owners_eq_filter] at howner
  exact List.mem_of_mem_filter howner

theorem owners_of_mem_children {p c : Place} (h : c ∈ p.children) :
    c.owners = if transparentKinds.contains p.kind then p.owners else p :: p.owners := by
  obtain ⟨i, n, rfl, _⟩ := childrenFrom_spec h
  rfl

/-- What owns the owner of a place comes right after it among the owners of the place. -/
theorem owners_eq_cons {p o : Place} (h : p.owner? = some o) : p.owners = o :: o.owners := by
  induction p with
  | root n => cases h
  | child p i n ih =>
    simp only [owner?, owners] at h ⊢
    split_ifs at h ⊢ with ht
    · exact ih h
    · cases h
      rfl

theorem owner?_of_mem_children {p c : Place} (hp : transparentKinds.contains p.kind = false)
    (h : c ∈ p.children) : c.owner? = some p := by
  rw [owner?, owners_of_mem_children h, hp]
  rfl

/-- Induction on the parentheses around an expression. -/
@[elab_as_elim]
theorem unwrap_induction {motive : ∀ p q : Place, p.unwrap = some q → Prop}
    (self : ∀ p (h : p.unwrap = some p), p.kind ≠ Kind.parenthesized → motive p p h)
    (inside : ∀ p c q (h : p.unwrap = some q) (hinner : c.unwrap = some q),
      p.kind = Kind.parenthesized → c ∈ p.parts → motive c q hinner → motive p q h)
    {p q : Place} (h : p.unwrap = some q) : motive p q h := by
  induction p using children_induction with
  | step p ih =>
    have hunwrap := h
    rw [unwrap_eq] at hunwrap
    split_ifs at hunwrap with hk
    · obtain ⟨c, hc, hq⟩ := Option.bind_eq_some_iff.mp hunwrap
      have hpart := List.mem_of_mem_head? hc
      exact inside p c q h hq hk hpart (ih c (mem_children_of_mem_parts hpart) hq)
    · cases hunwrap
      exact self _ h hk

/-- Parentheses and what stands inside them have the same places above them, up to parentheses. -/
theorem filter_ancestors_of_unwrap {keep : Place → Bool}
    (hkeep : ∀ p, p.kind = Kind.parenthesized → keep p = false) {p q : Place}
    (h : p.unwrap = some q) : q.ancestors.filter keep = p.ancestors.filter keep := by
  induction h using unwrap_induction with
  | self => rfl
  | inside p c q _ _ hk hc ih =>
    have hskip : (p :: p.ancestors).filter keep = p.ancestors.filter keep :=
      List.filter_cons_of_neg (by simp [hkeep p hk])
    rw [ih, ancestors_of_mem_children (mem_children_of_mem_parts hc), hskip]

/-- Parentheses and what stands inside them have the same owners. -/
theorem owners_of_unwrap {p q : Place} (h : p.unwrap = some q) : q.owners = p.owners := by
  rw [owners_eq_filter, owners_eq_filter]
  apply filter_ancestors_of_unwrap _ h
  intro p hk
  rw [hk]
  decide

theorem owner?_of_unwrap {p q : Place} (h : p.unwrap = some q) : q.owner? = p.owner? := by
  rw [owner?, owner?, owners_of_unwrap h]

theorem owner?_of_unwrap_child {p c q : Place} (hp : transparentKinds.contains p.kind = false)
    (hc : c ∈ p.children) (hq : c.unwrap = some q) : q.owner? = some p := by
  rw [owner?_of_unwrap hq]
  exact owner?_of_mem_children hp hc

/-- An expression of a kind that stands for more than its parts owns them. -/
theorem not_transparent {p : Place} {kind : Kind} (h : p.kind == kind)
    (hkind : transparentKinds.contains kind = false) : transparentKinds.contains p.kind = false := by
  rw [beq_iff_eq.mp h]
  exact hkind

theorem isCall_of_callee? {c callee : Place} (h : c.callee? = some callee) : c.isCall := by
  unfold callee? at h
  split_ifs at h with hk
  exact hk

/-- What is called is owned by the call. -/
theorem owner?_of_callee? {c callee : Place} (h : c.callee? = some callee) :
    callee.owner? = some c := by
  unfold callee? at h
  split_ifs at h with hk
  obtain ⟨function, hf, hq⟩ := Option.bind_eq_some_iff.mp h
  exact owner?_of_unwrap_child (not_transparent hk (by decide)) (mem_children_of_childAs hf) hq

/-- The member that is taken is owned by the expression that takes it. -/
theorem owner?_of_property? {m property : Place} (h : m.property? = some property) :
    m.isMember ∧ property.owner? = some m := by
  unfold property? at h
  split_ifs at h with hk
  exact ⟨hk, owner?_of_mem_children (not_transparent hk (by decide)) (mem_children_of_childAs h)⟩

theorem mem_preorder_of_unwrap {p q : Place} (h : p.unwrap = some q) : q ∈ p.preorder := by
  induction h using unwrap_induction with
  | self p => exact mem_preorder_self p
  | inside p c q _ _ _ hc ih =>
    exact mem_preorder_iff.mpr (.inr ⟨c, mem_children_of_mem_parts hc, ih⟩)

theorem exists_child_of_object? {m object : Place} (h : m.object? = some object) :
    ∃ child, m.childAs .object = some child ∧ child.unwrap = some object := by
  unfold object? at h
  split_ifs at h
  exact Option.bind_eq_some_iff.mp h

theorem mem_preorder_of_object? {m object : Place} (h : m.object? = some object) :
    object ∈ m.preorder := by
  obtain ⟨child, hchild, hunwrap⟩ := exists_child_of_object? h
  exact preorder_trans (mem_preorder_of_mem_children (mem_children_of_childAs hchild))
    (mem_preorder_of_unwrap hunwrap)

theorem exists_of_mem_callArguments {q c : Place} (h : c ∈ q.callArguments) :
    q.isCall ∧ ∃ list ∈ q.children, list.kind = Kind.arguments ∧ c ∈ list.children := by
  unfold callArguments at h
  split_ifs at h with hcall
  · split at h
    · next list hlist =>
      split_ifs at h with hkind
      · exact ⟨hcall, list, mem_children_of_childAs hlist, hkind, mem_children_of_mem_parts h⟩
      · cases h
    · cases h
  · cases h

/-- An argument is owned by its call. -/
theorem owner?_of_mem_callArguments {c a : Place} (h : a ∈ c.callArguments) : a.owner? = some c := by
  obtain ⟨hcall, list, hlist, hkind, ha⟩ := exists_of_mem_callArguments h
  have ht : transparentKinds.contains list.kind := by
    rw [hkind]
    decide
  rw [owner?, owners_of_mem_children ha, if_pos ht]
  exact owner?_of_mem_children (not_transparent hcall (by decide)) hlist

/-- What a member is taken of is owned by the expression that takes it. -/
theorem owner?_of_object? {m object : Place} (h : m.object? = some object) :
    object.owner? = some m := by
  obtain ⟨child, hchild, hunwrap⟩ := exists_child_of_object? h
  unfold object? at h
  split_ifs at h with hk
  exact owner?_of_unwrap_child (not_transparent hk (by decide)) (mem_children_of_childAs hchild) hunwrap

theorem owner?_of_body? {f body : Place} (h : f.body? = some body) : body.owner? = some f := by
  unfold body? at h
  split_ifs at h with hk
  exact owner?_of_mem_children (not_transparent hk (by decide)) (mem_children_of_childAs h)

/-- What is waited for is owned by the expression that waits. -/
theorem owner?_of_operand? {w operand : Place} (h : w.operand? = some operand) :
    operand.owner? = some w := by
  unfold operand? at h
  split_ifs at h with hk
  obtain ⟨part, hpart, hunwrap⟩ := Option.bind_eq_some_iff.mp h
  have hchild : part ∈ w.children := mem_children_of_mem_parts (List.mem_of_mem_head? hpart)
  exact owner?_of_unwrap_child (not_transparent hk (by decide)) hchild hunwrap

/-! ### What is called and what is given -/

/-- The nearest place above that is no parentheses. It tells what is called from an argument, which is in
a list of arguments. -/
def holder? (p : Place) : Option Place := p.ancestors.find? (·.kind ≠ Kind.parenthesized)

theorem holder?_of_unwrap {p q : Place} (h : p.unwrap = some q) : q.holder? = p.holder? := by
  rw [holder?, holder?, ← List.head?_filter, ← List.head?_filter]
  exact congrArg List.head? (filter_ancestors_of_unwrap (fun p hk => by simp [hk]) h)

theorem holder?_of_mem_children {p c : Place} (hp : p.kind ≠ Kind.parenthesized)
    (h : c ∈ p.children) : c.holder? = some p := by
  rw [holder?, ancestors_of_mem_children h]
  exact List.find?_cons_of_pos (by simpa using hp)

theorem holder?_of_callee? {c callee : Place} (h : c.callee? = some callee) :
    callee.holder? = some c := by
  unfold callee? at h
  split_ifs at h with hk
  obtain ⟨function, hf, hq⟩ := Option.bind_eq_some_iff.mp h
  have hkind : c.kind ≠ Kind.parenthesized := by
    rw [beq_iff_eq.mp hk]
    decide
  rw [holder?_of_unwrap hq]
  exact holder?_of_mem_children hkind (mem_children_of_childAs hf)

theorem holder?_of_mem_callArguments {c a : Place} (h : a ∈ c.callArguments) :
    ∃ list, a.holder? = some list ∧ list.kind = Kind.arguments := by
  obtain ⟨_, list, _, hkind, ha⟩ := exists_of_mem_callArguments h
  have hother : list.kind ≠ Kind.parenthesized := by
    rw [hkind]
    decide
  exact ⟨list, holder?_of_mem_children hother ha, hkind⟩

/-- What is called has another holder than an argument. -/
theorem holder?_ne_of_callee? {c d callee a : Place} (h : c.callee? = some callee)
    (ha : a ∈ d.callArguments) : callee.holder? ≠ a.holder? := by
  intro hsame
  obtain ⟨list, hlist, hkind⟩ := holder?_of_mem_callArguments ha
  rw [holder?_of_callee? h, hlist] at hsame
  cases hsame
  exact absurd ((beq_iff_eq.mp (isCall_of_callee? h)).symm.trans hkind) (by decide)

end QueryLint.Code.Place
