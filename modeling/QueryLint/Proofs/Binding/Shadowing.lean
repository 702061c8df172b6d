import QueryLint.Proofs.Binding.Uses

/-!
# Variables that share a use

Two rules decide whose a use is: the scope that a declaration belongs to is found going up, and the
names that a scope declares anew are found going down to its direct statements. Where the two agree
no name is a use of two variables whose scopes differ. They do not agree everywhere. A `var` in an
inner block belongs to the function and a declaration in a case belongs to the switch, yet neither
is a direct statement there, and its uses are taken for uses of an outer variable as well.

The main statement tells exactly when this happens: a use of the inner variable is shared unless a
scope around it and around the inner declaration lists the name.
-/
namespace QueryLint.Binding

open QueryLint.Code QueryLint.Code.Place

variable {source : Source}

/-- Whether a use of an inner variable, declared at `inner`, is kept from an outer one, declared at
`outer` in the scope `scope`: by a scope around the inner declaration that lists the name. -/
def IsHidden (source : Source) (name : String) (scope outer inner p : Place) : Prop :=
  ∃ b ∈ p.ancestors, isScope b ∧ b ∈ inner.ancestors ∧ scope ∈ b.ancestors ∧
    b ∉ outer.ancestors ∧ name ∈ declaredNames source b

/-- The kinds of scope that declare what their direct statements declare. -/
def statementScopes : List Kind :=
  [Kind.program, Kind.statementBlock, "switch_body", "class_body"]

/-- Whether a declarator stands where its scope looks for the names it declares: in a statement of
the block, in a statement of the function's body, or at the head of the loop. -/
def StandsDirectly (declarator scope : Place) : Prop :=
  ∃ declaration, declarator ∈ declaration.parts ∧ declarator.isDeclarator ∧
    declaration.kind ∈ declarationKinds ∧
    (declaration ∈ scope.parts ∧ scope.kind ∈ statementScopes ∨
      (∃ body, scope.childAs .body = some body ∧ body.kind = Kind.statementBlock ∧
        declaration ∈ body.parts) ∧ scope.kind ∈ functionScopes ∧ scope.kind ≠ Kind.program ∨
      scope.childAs .initializer = some declaration ∧ scope.kind = "for_statement")

theorem mem_declaratorPatterns {d declaration : Place} (hd : d ∈ declaration.parts)
    (hk : d.isDeclarator) : d.childAs .name ∈ declaratorPatterns declaration :=
  List.mem_map_of_mem (List.mem_filter.mpr ⟨hd, hk⟩)

theorem mem_blockPatterns {d declaration block : Place} (hdeclaration : declaration ∈ block.parts)
    (hdk : declaration.kind ∈ declarationKinds) (hd : d ∈ declaration.parts) (hk : d.isDeclarator) :
    d.childAs .name ∈ blockPatterns block := by
  refine List.mem_flatMap.mpr ⟨declaration, hdeclaration, ?_⟩
  rw [if_pos (List.contains_iff_mem.mpr hdk)]
  exact mem_declaratorPatterns hd hk

theorem scopeSort_of_statementScope {k : Kind} (h : k ∈ statementScopes) :
    scopeSort k = .block := by
  have hall : ∀ k ∈ statementScopes, scopeSort k = .block := by decide
  exact hall k h

/-- The target of a declarator that stands directly in a scope is one of the scope's patterns. -/
theorem mem_scopePatterns_of_standsDirectly {d scope : Place} (h : StandsDirectly d scope) :
    d.childAs .name ∈ scopePatterns scope := by
  obtain ⟨declaration, hd, hk, hdk, hplace⟩ := h
  rcases hplace with ⟨hs, hsk⟩ | ⟨⟨body, hb, hbk, hs⟩, hf, hp⟩ | ⟨hi, hsk⟩
  · rw [scopePatterns, scopeSort_of_statementScope hsk]
    exact mem_blockPatterns hs hdk hd hk
  · have hsort : scopeSort scope.kind = .function := if_pos ⟨List.contains_iff_mem.mpr hf, hp⟩
    have hbody : bodyBlock? scope = some body :=
      Option.filter_eq_some_iff.mpr ⟨hb, decide_eq_true hbk⟩
    rw [scopePatterns, hsort, hbody]
    exact List.mem_cons_of_mem _ (List.mem_cons_of_mem _ (mem_blockPatterns hs hdk hd hk))
  · have hsort : scopeSort scope.kind = .loop := by
      rw [hsk]
      decide
    rw [scopePatterns, hsort, hi]
    simp only [List.contains_iff_mem.mpr hdk, if_true]
    exact mem_declaratorPatterns hd hk

/-- A declaration that stands directly in its scope is listed by it. -/
theorem mem_declaredNames_of_standsDirectly {d scope : Place} {v : Variable}
    (h : StandsDirectly d scope) (hv : v ∈ declaredVariables source d) :
    v.name ∈ declaredNames source scope := by
  rw [name_of_mem_declaredVariables hv]
  have hbound : v.binding ∈ (scopePatterns scope).flatMap boundNames? :=
    List.mem_flatMap.mpr
      ⟨_, mem_scopePatterns_of_standsDirectly h, (mem_declaredVariables hv).2.1⟩
  exact List.mem_append_left _ (List.mem_map_of_mem hbound)

section Shared

variable {d₁ d₂ : Place} {v₁ v₂ : Variable}

/-- With one scope inside the other, a use of the inner variable is one of the outer variable as
well, unless it is hidden or comes before the outer binding. -/
theorem shared_iff (wf : source.tree.WellFormed) (hd₁ : d₁ ∈ source.tree.places)
    (hd₂ : d₂ ∈ source.tree.places) (hv₁ : v₁ ∈ declaredVariables source d₁)
    (hv₂ : v₂ ∈ declaredVariables source d₂) (hname : v₁.name = v₂.name)
    (hnest : v₁.scope ∈ v₂.scope.ancestors) {p : Place} (hp : p ∈ v₂.places) :
    p ∈ v₁.places ↔
      v₁.binding.stop ≤ p.start ∧ ¬ IsHidden source v₁.name v₁.scope d₁ d₂ p := by
  have hn₁ := name_of_mem_declaredVariables hv₁
  have hn₂ := name_of_mem_declaredVariables hv₂
  obtain ⟨hpt, hu₂⟩ := (mem_places_iff wf hd₂ hv₂ p).mp hp
  rw [mem_places_iff wf hd₁ hv₁]
  constructor
  · intro h
    obtain ⟨_, hu₁⟩ := h
    refine ⟨hu₁.after, ?_⟩
    intro h
    obtain ⟨b, hbp, hbs, _, hsb, hbd, hmem⟩ := h
    exact hu₁.unshadowed b hbp hbs hsb hbd (hn₁ ▸ hmem)
  · intro h
    obtain ⟨hafter, hhid⟩ := h
    have htext : source.textOf p = source.textOf v₁.binding := by
      rw [hu₂.text, ← hn₂, ← hname, hn₁]
    refine ⟨hpt, ancestors_trans hnest hu₂.below, hu₂.kind, htext, hu₂.notElement, hafter, ?_⟩
    intro b hbp hbs hsb hbd hmem
    rw [← hn₁] at hmem
    by_cases hbi : b ∈ d₂.ancestors
    · exact hhid ⟨b, hbp, hbs, hbi, hsb, hbd, hmem⟩
    · -- not being around the inner declaration, `b` lies below the inner scope
      have hs₂ := (mem_ancestors_of_declaringScope (mem_declaredVariables hv₂).1).1
      rcases ancestors_linear hbp hu₂.below with rfl | hb | hb
      · exact hbi hs₂
      · exact hbi (ancestors_trans hb hs₂)
      · rw [hname, hn₂] at hmem
        exact hu₂.unshadowed b hbp hbs hb hbi hmem

/-- The names of two declarations that belong to different scopes share no use exactly if every
use of the inner variable after the outer binding is hidden. In particular they share none if the
inner declaration stands directly in its scope and the outer one stands outside of it. -/
theorem no_shared_use_iff (wf : source.tree.WellFormed) (hd₁ : d₁ ∈ source.tree.places)
    (hd₂ : d₂ ∈ source.tree.places) (hv₁ : v₁ ∈ declaredVariables source d₁)
    (hv₂ : v₂ ∈ declaredVariables source d₂) (hname : v₁.name = v₂.name)
    (hscope : v₁.scope ≠ v₂.scope) :
    ((∀ p, ¬ (p ∈ v₁.places ∧ p ∈ v₂.places)) ↔
      (v₁.scope ∈ v₂.scope.ancestors → ∀ p ∈ v₂.places, v₁.binding.stop ≤ p.start →
        IsHidden source v₁.name v₁.scope d₁ d₂ p) ∧
      (v₂.scope ∈ v₁.scope.ancestors → ∀ p ∈ v₁.places, v₂.binding.stop ≤ p.start →
        IsHidden source v₂.name v₂.scope d₂ d₁ p)) ∧
    (v₁.scope ∈ v₂.scope.ancestors → v₂.scope ∉ d₁.ancestors → StandsDirectly d₂ v₂.scope →
      ∀ p, ¬ (p ∈ v₁.places ∧ p ∈ v₂.places)) := by
  refine ⟨⟨fun h => ⟨fun hnest p hp ha => ?_, fun hnest p hp ha => ?_⟩, ?_⟩, ?_⟩
  · by_contra hhid
    exact h p ⟨(shared_iff wf hd₁ hd₂ hv₁ hv₂ hname hnest hp).mpr ⟨ha, hhid⟩, hp⟩
  · by_contra hhid
    exact h p ⟨hp, (shared_iff wf hd₂ hd₁ hv₂ hv₁ hname.symm hnest hp).mpr ⟨ha, hhid⟩⟩
  · rintro ⟨h₁, h₂⟩ p ⟨hp₁, hp₂⟩
    have hs₁ := ((mem_places_iff wf hd₁ hv₁ p).mp hp₁).2.below
    have hs₂ := ((mem_places_iff wf hd₂ hv₂ p).mp hp₂).2.below
    -- both scopes are above the use, so one of them is inside the other
    rcases ancestors_linear hs₁ hs₂ with heq | hnest | hnest
    · exact hscope heq
    · obtain ⟨ha, hhid⟩ := (shared_iff wf hd₁ hd₂ hv₁ hv₂ hname hnest hp₂).mp hp₁
      exact hhid (h₁ hnest p hp₂ ha)
    · obtain ⟨ha, hhid⟩ := (shared_iff wf hd₂ hd₁ hv₂ hv₁ hname.symm hnest hp₁).mp hp₂
      exact hhid (h₂ hnest p hp₁ ha)
  · rintro hnest hout hdirect p ⟨hp₁, hp₂⟩
    obtain ⟨hs₂, hss⟩ := mem_ancestors_of_declaringScope (mem_declaredVariables hv₂).1
    refine ((shared_iff wf hd₁ hd₂ hv₁ hv₂ hname hnest hp₂).mp hp₁).2 ⟨v₂.scope, ?_⟩
    refine ⟨((mem_places_iff wf hd₂ hv₂ p).mp hp₂).2.below, hss, hs₂, hnest, hout, ?_⟩
    rw [hname]
    exact mem_declaredNames_of_standsDirectly hdirect hv₂

end Shared

/-- In `shadowed` the inner declaration stands directly in its block. -/
theorem no_shared_use_shadowed :
    shadowed.tree.WellFormed ∧
      ∃ v₁ ∈ declaredVariables shadowed (shadowed.tree.placeAt 2),
      ∃ v₂ ∈ declaredVariables shadowed (shadowed.tree.placeAt 13),
        v₁.name = v₂.name ∧ v₁.scope ≠ v₂.scope ∧
          StandsDirectly (shadowed.tree.placeAt 13) v₂.scope ∧
          ∀ p, ¬ (p ∈ v₁.places ∧ p ∈ v₂.places) := by
  have wf : shadowed.tree.WellFormed := by decide
  have hv₁ : variableOf shadowed (shadowed.tree.placeAt 2) (shadowed.tree.placeAt 0)
      (shadowed.tree.placeAt 3) ∈ declaredVariables shadowed (shadowed.tree.placeAt 2) :=
    variableOf_mem_declaredVariables (by decide) rfl (List.mem_singleton.mpr rfl)
  have hv₂ : variableOf shadowed (shadowed.tree.placeAt 13) (shadowed.tree.placeAt 11)
      (shadowed.tree.placeAt 14) ∈ declaredVariables shadowed (shadowed.tree.placeAt 13) :=
    variableOf_mem_declaredVariables (by decide) rfl (List.mem_singleton.mpr rfl)
  have hname : shadowed.textOf (shadowed.tree.placeAt 3) =
      shadowed.textOf (shadowed.tree.placeAt 14) := by decide
  have hdirect : StandsDirectly (shadowed.tree.placeAt 13) (shadowed.tree.placeAt 11) := by
    refine ⟨shadowed.tree.placeAt 12, ?_, by decide, by decide, .inl ⟨?_, by decide⟩⟩
    · exact List.mem_singleton.mpr rfl
    · exact List.mem_cons_self
  have habove : (shadowed.tree.placeAt 11).ancestors =
      [shadowed.tree.placeAt 8, shadowed.tree.placeAt 5, shadowed.tree.placeAt 0] := rfl
  have houter : (shadowed.tree.placeAt 2).ancestors =
      [shadowed.tree.placeAt 1, shadowed.tree.placeAt 0] := rfl
  have hnest : shadowed.tree.placeAt 0 ∈ (shadowed.tree.placeAt 11).ancestors := by
    rw [habove]
    simp
  have hout : shadowed.tree.placeAt 11 ∉ (shadowed.tree.placeAt 2).ancestors := by
    rw [houter]
    simp only [List.mem_cons, List.not_mem_nil, or_false, not_or]
    exact ⟨nofun, nofun⟩
  exact ⟨wf, _, hv₁, _, hv₂, name_variableOf_eq hname, nofun, hdirect,
    (no_shared_use_iff wf (shadowed.tree.placeAt_mem 2) (shadowed.tree.placeAt_mem 13) hv₁ hv₂
      (name_variableOf_eq hname) nofun).2 hnest hout hdirect⟩

/-- `const p = 1; switch (x) { case 1: let p = 2; p }` -/
def switchCase : Source where
  path := "a.js"
  text := "const p = 1; switch (x) { case 1: let p = 2; p }"
  language := .javascript
  tree :=
    .named "program" 0 48 none [
      .named "lexical_declaration" 0 12 none [
        .token "const" 0 5 (some .kind),
        .named "variable_declarator" 6 11 none [
          .named "identifier" 6 7 (some .name) [], .token "=" 8 9,
          .named "number" 10 11 (some .value) []],
        .token ";" 11 12],
      .named "switch_statement" 13 48 none [
        .token "switch" 13 19,
        .named "parenthesized_expression" 20 23 (some .value) [
          .token "(" 20 21, .named "identifier" 21 22 none [], .token ")" 22 23],
        .named "switch_body" 24 48 (some .body) [
          .token "\x7b" 24 25,
          .named "switch_case" 26 46 none [
            .token "case" 26 30, .named "number" 31 32 (some .value) [], .token ":" 32 33,
            .named "lexical_declaration" 34 44 (some .body) [
              .token "let" 34 37 (some .kind),
              .named "variable_declarator" 38 43 none [
                .named "identifier" 38 39 (some .name) [], .token "=" 40 41,
                .named "number" 42 43 (some .value) []],
              .token ";" 43 44],
            .named "expression_statement" 45 46 none [.named "identifier" 45 46 none []]],
          .token "\x7d" 47 48]]]

/-- In a case of a switch, the last name is a use of both variables. -/
theorem shared_use_switchCase :
    switchCase.tree.WellFormed ∧
      ∃ v₁ ∈ declaredVariables switchCase (switchCase.tree.placeAt 3),
      ∃ v₂ ∈ declaredVariables switchCase (switchCase.tree.placeAt 22),
        v₁.name = v₂.name ∧ v₁.scope ≠ v₂.scope ∧ ∃ p, p ∈ v₁.places ∧ p ∈ v₂.places := by
  have hv₁ : variableOf switchCase (switchCase.tree.placeAt 3) (switchCase.tree.placeAt 0)
      (switchCase.tree.placeAt 4) ∈ declaredVariables switchCase (switchCase.tree.placeAt 3) :=
    variableOf_mem_declaredVariables (by decide) rfl (List.mem_singleton.mpr rfl)
  have hv₂ : variableOf switchCase (switchCase.tree.placeAt 22) (switchCase.tree.placeAt 14)
      (switchCase.tree.placeAt 23) ∈ declaredVariables switchCase (switchCase.tree.placeAt 22) :=
    variableOf_mem_declaredVariables (by decide) rfl (List.mem_singleton.mpr rfl)
  have hname : switchCase.textOf (switchCase.tree.placeAt 4) =
      switchCase.textOf (switchCase.tree.placeAt 23) := by decide
  have hp₁ : (variableOf switchCase (switchCase.tree.placeAt 3) (switchCase.tree.placeAt 0)
      (switchCase.tree.placeAt 4)).places =
        [switchCase.tree.placeAt 23, switchCase.tree.placeAt 28] := by
    rw [places_variableOf, usesIn_eq]
    rfl
  have hp₂ : (variableOf switchCase (switchCase.tree.placeAt 22) (switchCase.tree.placeAt 14)
      (switchCase.tree.placeAt 23)).places = [switchCase.tree.placeAt 28] := by
    rw [places_variableOf, usesIn_eq]
    rfl
  refine ⟨by decide, _, hv₁, _, hv₂, name_variableOf_eq hname, nofun,
    switchCase.tree.placeAt 28, ?_, ?_⟩
  · rw [hp₁]
    exact List.mem_cons_of_mem _ List.mem_cons_self
  · rw [hp₂]
    exact List.mem_cons_self

end QueryLint.Binding
