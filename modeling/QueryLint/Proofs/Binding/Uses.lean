import QueryLint.Proofs.Code.Search
import QueryLint.Proofs.Code.WellFormed

/-!
# The uses of a variable

The uses that a declarator finds for its variables are said here without the walk that finds them:
a name with the variable's text, below the variable's scope and after its binding, such that no
scope in between lists the text, those around the declarator apart.

The walk leaves subtrees out for three reasons. Below a name it has met there is nothing, since
names are leaves; a scope around the declarator is told by its key, since keys are unique; and what
else it leaves out is shadowed. So nothing is lost, and nothing is met twice.
-/
namespace QueryLint.Binding

open QueryLint.Code QueryLint.Code.Place

/-- The places where a variable is used. -/
def Variable.places (v : Variable) : List Place := v.uses.map (·.place)

/-- Whether `p` uses the variable bound at `binding` by a declarator whose variables belong to
`scope`. -/
structure IsUse (source : Source) (declarator scope binding p : Place) : Prop where
  below : scope ∈ p.ancestors
  kind : p.kind = Kind.identifier ∨ p.kind = Kind.shorthandProperty
  text : source.textOf p = source.textOf binding
  notElement : ¬ isElementName p
  after : binding.stop ≤ p.start
  unshadowed : ∀ b ∈ p.ancestors, isScope b → scope ∈ b.ancestors → b ∉ declarator.ancestors →
    source.textOf binding ∉ declaredNames source b

theorem mem_ancestors_of_declaringScope {d s : Place} (h : declaringScope? d = some s) :
    s ∈ d.ancestors ∧ isScope s := by
  cases d with
  | root n => cases h
  | child p i n =>
    simp only [declaringScope?, parent?, Option.bind_some] at h
    split at h
    · have hk := List.find?_some h
      refine ⟨List.mem_cons_of_mem _ (List.mem_of_find?_eq_some h), ?_⟩
      simp only [isScope, blockScopes, List.contains_eq_mem, List.mem_append,
        decide_eq_true_eq] at hk ⊢
      exact .inl hk
    · exact ⟨List.mem_cons_of_mem _ (List.mem_of_find?_eq_some h), List.find?_some h⟩

variable {source : Source}

/-- What the search for the uses of a name does at a place that declares what it declares. -/
def useVerdictAt (source : Source) (name : String) (enclosing : List ScopeKey) (p : Place) : Verdict :=
  useVerdict source name p (shadows source name enclosing p)

/-- The search for the uses of a name, by recursion on the tree. -/
theorem usesIn_eq (scope : Place) (name : String) (declarator : Place) :
    usesIn source scope name declarator =
      scope.children.flatMap
        (Place.search (useVerdictAt source name (declarator.ancestors.map scopeKey))) := by
  rw [usesIn]
  simp only [searchOn_pure, Id.run_pure, push_reverse, List.append_nil]
  rfl

theorem useKinds_contains {k : Kind} :
    useKinds.contains k ↔ k = Kind.identifier ∨ k = Kind.shorthandProperty := by
  simp [useKinds]

theorem isIdentifier_of_useKinds {p : Place} (h : useKinds.contains p.kind) : p.isIdentifier := by
  rcases useKinds_contains.mp h with hk | hk <;> rw [isIdentifier, hk] <;> decide

theorem not_isScope_of_useKinds {p : Place} (h : useKinds.contains p.kind) : ¬ isScope p := by
  rcases useKinds_contains.mp h with hk | hk <;> rw [isScope, hk] <;> decide

/-- In a well-formed tree, the keys of the places around the declarator exempt just these. -/
theorem shadows_iff (wf : source.tree.WellFormed) {d b : Place} (hd : d ∈ source.tree.places)
    (hb : b ∈ source.tree.places) (name : String) :
    shadows source name (d.ancestors.map scopeKey) b ↔
      isScope b ∧ b ∉ d.ancestors ∧ name ∈ declaredNames source b := by
  have hkey : isScope b → (scopeKey b ∈ d.ancestors.map scopeKey ↔ b ∈ d.ancestors) := fun hs =>
    ⟨mem_ancestors_of_scopeKey wf hb hd hs, List.mem_map_of_mem⟩
  simp only [shadows, Bool.and_eq_true, Bool.not_eq_true', List.contains_eq_mem,
    decide_eq_false_iff_not, decide_eq_true_eq, and_assoc]
  exact and_congr_right fun hs => and_congr_left' (not_congr (hkey hs))

theorem useVerdictAt_eq_take_iff {name : String} {enclosing : List ScopeKey} {p : Place} :
    useVerdictAt source name enclosing p = .take ↔
      (p.kind = Kind.identifier ∨ p.kind = Kind.shorthandProperty) ∧
        source.textOf p = name ∧ ¬ isElementName p := by
  rw [← useKinds_contains]
  constructor
  · intro h
    unfold useVerdictAt useVerdict at h
    split_ifs at h with hs hu he
    simp only [Bool.and_eq_true, beq_iff_eq] at hu
    exact ⟨hu.1, hu.2, he⟩
  · intro hyp
    obtain ⟨hk, ht, he⟩ := hyp
    -- a name is no scope, so it is not skipped as one
    have hs : shadows source name enclosing p = false := by
      simp only [shadows, Bool.eq_false_iff.mpr (not_isScope_of_useKinds hk), Bool.false_and]
    simp [useVerdictAt, useVerdict, hs, he, ht, useKinds_contains.mp hk, useKinds]

theorem useVerdictAt_eq_below_iff {name : String} {enclosing : List ScopeKey} {a : Place}
    (h : ¬ a.isIdentifier) :
    useVerdictAt source name enclosing a = .below ↔ ¬ shadows source name enclosing a := by
  have hk : useKinds.contains a.kind = false :=
    Bool.eq_false_iff.mpr fun hk => h (isIdentifier_of_useKinds hk)
  rw [useVerdictAt, useVerdict, hk, Bool.false_and]
  cases shadows source name enclosing a <;> simp

/-- The walk through a scope meets the names below it that no scope in between declares anew. -/
theorem mem_usesIn_iff (wf : source.tree.WellFormed) {d scope : Place}
    (hd : d ∈ source.tree.places) (hscope : scope ∈ source.tree.places) (name : String)
    (p : Place) :
    p ∈ usesIn source scope name d ↔
      p ∈ source.tree.places ∧ scope ∈ p.ancestors ∧
        (p.kind = Kind.identifier ∨ p.kind = Kind.shorthandProperty) ∧
        source.textOf p = name ∧ ¬ isElementName p ∧
        ∀ b ∈ p.ancestors, isScope b → scope ∈ b.ancestors → b ∉ d.ancestors →
          name ∉ declaredNames source b := by
  rw [usesIn_eq, mem_flatMap_search_iff, mem_descendants_iff hscope, useVerdictAt_eq_take_iff]
  constructor
  · intro hyp
    obtain ⟨⟨hp, hs⟩, ⟨hk, ht, he⟩, h⟩ := hyp
    refine ⟨hp, hs, hk, ht, he, fun b hb hbs hsb hbd hmem => ?_⟩
    have hnot := (useVerdictAt_eq_below_iff (not_isIdentifier_of_mem_ancestors wf hp hb)).mp
      (h b hb hsb)
    exact hnot ((shadows_iff wf hd (mem_places_of_mem_ancestors hp hb) name).mpr
      ⟨hbs, hbd, hmem⟩)
  · intro hyp
    obtain ⟨hp, hs, hk, ht, he, h⟩ := hyp
    refine ⟨⟨hp, hs⟩, ⟨hk, ht, he⟩, fun b hb hsb => ?_⟩
    refine (useVerdictAt_eq_below_iff (not_isIdentifier_of_mem_ancestors wf hp hb)).mpr fun hsh => ?_
    obtain ⟨hbs, hbd, hmem⟩ :=
      (shadows_iff wf hd (mem_places_of_mem_ancestors hp hb) name).mp hsh
    exact h b hb hbs hsb hbd hmem

theorem usesIn_sublist {d scope : Place} (hscope : scope ∈ source.tree.places) (name : String) :
    (usesIn source scope name d).Sublist source.tree.places := by
  rw [usesIn_eq]
  exact (List.Sublist.flatMap_right _ fun c _ => search_sublist c).trans
    (descendants_sublist hscope)

@[simp] theorem name_variableOf (d scope binding : Place) :
    (variableOf source d scope binding).name = source.textOf binding := by
  simp only [variableOf, variableOver]

theorem name_variableOf_eq {d₁ s₁ b₁ d₂ s₂ b₂ : Place} (h : source.textOf b₁ = source.textOf b₂) :
    (variableOf source d₁ s₁ b₁).name = (variableOf source d₂ s₂ b₂).name := by
  rw [name_variableOf, name_variableOf, h]

@[simp] theorem scope_variableOf (d scope binding : Place) :
    (variableOf source d scope binding).scope = scope := rfl

@[simp] theorem binding_variableOf (d scope binding : Place) :
    (variableOf source d scope binding).binding = binding := rfl

theorem places_variableOf (d scope binding : Place) :
    (variableOf source d scope binding).places =
      (usesIn source scope (source.textOf binding) d).filter (binding.stop ≤ ·.start) := by
  simp only [Variable.places, variableOf, variableOver, List.map_map, Function.comp_def, List.map_id']

theorem mem_declaredVariables {d : Place} {v : Variable} (hv : v ∈ declaredVariables source d) :
    declaringScope? d = some v.scope ∧ v.binding ∈ boundNames? (d.childAs .name) ∧
      v = variableOf source d v.scope v.binding := by
  unfold declaredVariables at hv
  split_ifs at hv with hk
  · cases hs : declaringScope? d with
    | none => rw [hs] at hv; cases hv
    | some scope =>
      rw [hs] at hv
      obtain ⟨binding, hb, rfl⟩ := List.mem_map.mp hv
      rw [scope_variableOf, binding_variableOf]
      exact ⟨rfl, hb, rfl⟩
  · cases hv

theorem variableOf_mem_declaredVariables {d scope binding : Place} (hk : d.isDeclarator)
    (hs : declaringScope? d = some scope) (hb : binding ∈ boundNames? (d.childAs .name)) :
    variableOf source d scope binding ∈ declaredVariables source d := by
  rw [declaredVariables, if_pos hk, hs]
  exact List.mem_map_of_mem hb

theorem name_of_mem_declaredVariables {d : Place} {v : Variable}
    (hv : v ∈ declaredVariables source d) : v.name = source.textOf v.binding := by
  rw [(mem_declaredVariables hv).2.2, name_variableOf, binding_variableOf]

theorem scope_mem_places {d : Place} {v : Variable} (hd : d ∈ source.tree.places)
    (hv : v ∈ declaredVariables source d) : v.scope ∈ source.tree.places :=
  mem_places_of_mem_ancestors hd
    (mem_ancestors_of_declaringScope (mem_declaredVariables hv).1).1

theorem mem_places_iff (wf : source.tree.WellFormed) {d : Place} (hd : d ∈ source.tree.places)
    {v : Variable} (hv : v ∈ declaredVariables source d) (p : Place) :
    p ∈ v.places ↔ p ∈ source.tree.places ∧ IsUse source d v.scope v.binding p := by
  rw [(mem_declaredVariables hv).2.2, places_variableOf, scope_variableOf, binding_variableOf,
    List.mem_filter, mem_usesIn_iff wf hd (scope_mem_places hd hv), decide_eq_true_eq]
  constructor
  · intro h
    obtain ⟨⟨hp, hs, hk, ht, he, hu⟩, ha⟩ := h
    exact ⟨hp, hs, hk, ht, he, ha, hu⟩
  · intro h
    obtain ⟨hp, hs, hk, ht, he, ha, hu⟩ := h
    exact ⟨⟨hp, hs, hk, ht, he, hu⟩, ha⟩

theorem places_sublist {d : Place} (hd : d ∈ source.tree.places) {v : Variable}
    (hv : v ∈ declaredVariables source d) : v.places.Sublist source.tree.places := by
  rw [(mem_declaredVariables hv).2.2, places_variableOf]
  exact List.filter_sublist.trans (usesIn_sublist (scope_mem_places hd hv) _)

/-- Names are leaves, so of two uses the first ends before the second. -/
theorem places_pairwise (wf : source.tree.WellFormed) {d : Place} (hd : d ∈ source.tree.places)
    {v : Variable} (hv : v ∈ declaredVariables source d) :
    v.places.Pairwise fun p q => p.stop ≤ q.start := by
  have hall := (pairwise_places wf.nested).sublist (places_sublist hd hv)
  refine hall.imp_of_mem fun hp hq h => h.resolve_left fun hpq => ?_
  obtain ⟨_, hup⟩ := (mem_places_iff wf hd hv _).mp hp
  obtain ⟨hqt, _⟩ := (mem_places_iff wf hd hv _).mp hq
  exact not_isIdentifier_of_mem_ancestors wf hqt hpq
    (isIdentifier_of_useKinds (useKinds_contains.mpr hup.kind))

/-- Scope resolution is exact: a declarator declares one variable for each name its pattern binds,
and lists each use of it once, in source order. -/
theorem declaredVariables_exact (wf : source.tree.WellFormed) {declarator scope : Place}
    (hd : declarator ∈ source.tree.places) (hk : declarator.isDeclarator)
    (hs : declaringScope? declarator = some scope) :
    (declaredVariables source declarator).map (·.binding) =
        boundNames? (declarator.childAs .name) ∧
      ∀ v ∈ declaredVariables source declarator,
        v.name = source.textOf v.binding ∧ v.scope = scope ∧
          (∀ p, p ∈ v.places ↔
            p ∈ source.tree.places ∧ IsUse source declarator scope v.binding p) ∧
          v.places.Nodup ∧ v.places.Sublist source.tree.places ∧
          v.places.Pairwise fun p q => p.stop ≤ q.start := by
  constructor
  · have hbinding : (fun v : Variable => v.binding) ∘ variableOf source declarator scope = id := rfl
    rw [declaredVariables, if_pos hk, hs, List.map_map, hbinding, List.map_id]
  · intro v hv
    have hscope : v.scope = scope :=
      Option.some.inj ((mem_declaredVariables hv).1.symm.trans hs)
    refine ⟨name_of_mem_declaredVariables hv, hscope, ?_, ?_, places_sublist hd hv,
      places_pairwise wf hd hv⟩
    · rw [← hscope]
      exact mem_places_iff wf hd hv
    · exact (places_sublist hd hv).nodup (nodup_preorder _)

/-- `const p = 1; function f() { p; { let p; p } p }` -/
def shadowed : Source where
  path := "a.js"
  text := "const p = 1; function f() { p; { let p; p } p }"
  language := .javascript
  tree :=
    .named "program" 0 47 none [
      .named "lexical_declaration" 0 12 none [
        .named "variable_declarator" 6 11 none [
          .named "identifier" 6 7 (some .name) [], .named "number" 10 11 (some .value) []]],
      .named "function_declaration" 13 47 none [
        .named "identifier" 22 23 (some .name) [],
        .named "formal_parameters" 23 25 (some .parameters) [],
        .named "statement_block" 26 47 (some .body) [
          .named "expression_statement" 28 30 none [.named "identifier" 28 29 none []],
          .named "statement_block" 31 43 none [
            .named "lexical_declaration" 33 39 none [
              .named "variable_declarator" 37 38 none [
                .named "identifier" 37 38 (some .name) []]],
            .named "expression_statement" 40 41 none [.named "identifier" 40 41 none []]],
          .named "expression_statement" 44 45 none [.named "identifier" 44 45 none []]]]]

example : (usesIn shadowed (shadowed.tree.placeAt 0) "p" (shadowed.tree.placeAt 2)).map (·.start) =
    [6, 28, 44] := by
  rw [usesIn_eq]
  decide

/-- The outer declaration of `shadowed` belongs to the program. -/
theorem declaredVariables_shadowed :
    shadowed.tree.WellFormed ∧ (shadowed.tree.placeAt 2).isDeclarator ∧
      declaringScope? (shadowed.tree.placeAt 2) = some (shadowed.tree.placeAt 0) ∧
      ∀ v ∈ declaredVariables shadowed (shadowed.tree.placeAt 2),
        v.name = shadowed.textOf v.binding ∧ v.scope = shadowed.tree.placeAt 0 ∧
          (∀ p, p ∈ v.places ↔ p ∈ shadowed.tree.places ∧
            IsUse shadowed (shadowed.tree.placeAt 2) (shadowed.tree.placeAt 0) v.binding p) ∧
          v.places.Nodup ∧ v.places.Sublist shadowed.tree.places ∧
          v.places.Pairwise fun p q => p.stop ≤ q.start := by
  have wf : shadowed.tree.WellFormed := by decide
  have hk : (shadowed.tree.placeAt 2).isDeclarator := by decide
  have hs : declaringScope? (shadowed.tree.placeAt 2) = some (shadowed.tree.placeAt 0) := rfl
  exact ⟨wf, hk, hs, (declaredVariables_exact wf (shadowed.tree.placeAt_mem 2) hk hs).2⟩

end QueryLint.Binding
