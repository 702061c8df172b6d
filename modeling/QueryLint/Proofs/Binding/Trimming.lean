import QueryLint.Proofs.Binding.Patterns
import QueryLint.Proofs.Binding.Uses
import QueryLint.Proofs.Code.Trimming

/-!
# Variables of a trimmed tree

Trimming leaves alone what binds names and what keeps names to itself. Parentheses are no scopes, so the
scopes around a place are the same, and they declare the same names. So each declarator has the same
variables with the same uses, apart from where these are.
-/
namespace QueryLint.Binding

open QueryLint.Code QueryLint.Code.Place

theorem isElementName_of_mem_children {p c : Place} (h : c ∈ p.children) :
    isElementName c =
      if elementNameKinds.contains p.kind then isElementName p else elementKinds.contains p.kind := by
  rw [isElementName, ancestors_of_mem_children h, List.dropWhile_cons]
  split_ifs <;> rfl

end QueryLint.Binding

namespace QueryLint.Code.Trimming

open QueryLint.Binding QueryLint.Code.Place

variable {source source' : Source} {t : Trimming source source'} {p : Place}

section Patterns

/-- What a pattern binds in is kept: no parentheses in a pattern are opened. -/
theorem keeps_of_bindsIn {c : Place} (h : t.Keeps p) (hc : BindsIn p c) : t.Keeps c := by
  have hshape := bindsIn_iff.mp hc
  have hstays : t.Stays c := by
    rcases hshape with ⟨role, _, hchild⟩ | ⟨_, hpart⟩
    · exact stays_of_childAs h hchild
    · exact stays_of_mem_parts h.mem hpart
  refine hstays.cases.resolve_right ?_
  rintro ⟨hct, hopened⟩
  have hopenable := (t.opened c hct hopened).1
  rcases hopenable.noPattern p (parent?_of_mem_children hc.mem_children) with hname | hnowhere
  · rw [hname] at hshape
    simp at hshape
  · rw [hnowhere] at hshape
    simp at hshape

theorem Keeps.boundNames (h : t.Keeps p) :
    Binding.boundNames (t.place p) = (Binding.boundNames p).map t.place := by
  induction p using children_induction with
  | step p ih =>
    have hbound : ∀ c, BindsIn p c →
        Binding.boundNames (t.place c) = (Binding.boundNames c).map t.place := fun c hc =>
      ih c hc.mem_children (keeps_of_bindsIn h hc)
    rw [boundNames_eq, boundNames_eq p, h.kind]
    cases hshape : shape p.kind with
    | name => rfl
    | inRole role =>
      change boundNames? ((t.place p).childAs role) = (boundNames? (p.childAs role)).map t.place
      rw [h.childAs]
      cases hc : p.childAs role with
      | none => rfl
      | some c => exact hbound c (bindsIn_iff.mpr (.inl ⟨role, hshape, hc⟩))
    | inParts =>
      change (t.place p).parts.flatMap Binding.boundNames =
        (p.parts.flatMap Binding.boundNames).map t.place
      rw [h.parts, List.flatMap_map, List.map_flatMap]
      exact List.flatMap_congr fun c hc => hbound c (bindsIn_iff.mpr (.inr ⟨hshape, hc⟩))
    | nowhere => rfl

theorem keeps_of_mem_boundNames {q : Place} (h : t.Keeps p) (hq : q ∈ boundNames p) :
    t.Keeps q := by
  induction p using children_induction with
  | step p ih =>
    rcases mem_boundNames_iff_child.mp hq with ⟨rfl, _⟩ | ⟨c, hc, hqc⟩
    · exact h
    · exact ih c hc.mem_children (keeps_of_bindsIn h hc) hqc

/-- A pattern that is kept, or is missing, binds the same texts. -/
theorem map_textOf_boundNames? {pattern : Option Place} (h : ∀ q ∈ pattern, t.Keeps q) :
    (boundNames? (pattern.map t.place)).map source'.textOf =
      (boundNames? pattern).map source.textOf := by
  cases pattern with
  | none => simp only [boundNames?, Option.map_none, Option.elim_none, List.map_nil]
  | some q =>
    have hkept : t.Keeps q := h q rfl
    simp only [boundNames?, Option.map_some, Option.elim_some, hkept.boundNames, List.map_map]
    refine List.map_congr_left fun d hd => ?_
    rw [Function.comp_apply, (keeps_of_mem_boundNames hkept hd).textOf]

end Patterns

theorem isElementName_place (h : t.Stays p) : isElementName (t.place p) = isElementName p := by
  induction p with
  | root n =>
    rw [eq_root_of_mem_places h.mem, t.place_root]
    rfl
  | child q i n ih =>
    rw [isElementName_of_mem_children (mem_children_of_mem_places h.mem)]
    rcases h.parent_cases with ⟨hkept, hchild⟩ | ⟨hopened, hplace⟩
    · rw [isElementName_of_mem_children hchild, hkept.kind, ih h.parent]
    · -- parentheses end a name, and those that are opened stand in none
      have hnot : isElementName q = false :=
        Bool.eq_false_iff.mpr (t.opened q h.parent.mem hopened).1.noElement
      rw [kind_of_opened h.parent.mem hopened, hplace, ih h.parent, hnot]
      decide

section Scopes

/-- Neither parentheses that are opened nor what takes their place is of any other kind. -/
theorem kind_place_eq_iff (h : t.Stays p) {k : Kind}
    (hk : k ∉ Kind.parenthesized :: openableKinds) : (t.place p).kind = k ↔ p.kind = k := by
  rcases h.cases with hkept | ⟨hp, hopened⟩
  · rw [hkept.kind]
  · rw [kind_of_opened hp hopened]
    refine iff_of_false ?_ ?_
    · rintro rfl
      exact hk (List.mem_cons_of_mem _ (kind_place_of_opened hp hopened).1)
    · rintro rfl
      exact hk List.mem_cons_self

theorem keeps_of_kind (h : t.Stays p) (hk : p.kind ≠ Kind.parenthesized) : t.Keeps p :=
  h.cases.resolve_right fun ⟨hp, hopened⟩ => hk (kind_of_opened hp hopened)

theorem Keeps.ownName (h : t.Keeps p) :
    Binding.ownName source' (t.place p) = Binding.ownName source p := by
  rw [Binding.ownName, Binding.ownName, h.childAs]
  cases hc : p.childAs .name with
  | none => rfl
  | some c =>
    rw [Option.map_some, Option.bind_some, Option.bind_some,
      (keeps_of_childAs (by decide) h hc).nameOf?]

/-- The patterns of a kept place, in the tree before and after trimming: each is kept or missing. -/
def SamePatterns (t : Trimming source source') (patterns patterns' : List (Option Place)) : Prop :=
  patterns' = patterns.map (Option.map t.place) ∧ ∀ pattern ∈ patterns, ∀ q ∈ pattern, t.Keeps q

theorem samePatterns_nil : SamePatterns t [] [] := ⟨rfl, List.forall_mem_nil _⟩

theorem SamePatterns.flatMap {f f' : Place → List (Option Place)} {places : List Place}
    (h : ∀ c ∈ places, SamePatterns t (f c) (f' (t.place c))) :
    SamePatterns t (places.flatMap f) ((places.map t.place).flatMap f') := by
  constructor
  · rw [List.flatMap_map, List.map_flatMap]
    exact List.flatMap_congr fun c hc => (h c hc).1
  · intro pattern hpattern
    obtain ⟨c, hc, hpattern⟩ := List.mem_flatMap.mp hpattern
    exact (h c hc).2 pattern hpattern

/-- A part that no opened parentheses play. -/
theorem Keeps.samePatterns_childAs (h : t.Keeps p) {role : Role} (hrole : some role ∉ openableRoles) :
    SamePatterns t [p.childAs role] [(t.place p).childAs role] := by
  refine ⟨by rw [h.childAs]; rfl, fun pattern hpattern q hq => ?_⟩
  rw [List.mem_singleton.mp hpattern] at hq
  exact keeps_of_childAs hrole h hq

theorem SamePatterns.append {as bs as' bs' : List (Option Place)} (ha : SamePatterns t as as')
    (hb : SamePatterns t bs bs') : SamePatterns t (as ++ bs) (as' ++ bs') := by
  constructor
  · rw [ha.1, hb.1, List.map_append]
  · exact List.forall_mem_append.mpr ⟨ha.2, hb.2⟩

theorem Keeps.samePatterns_declarator (h : t.Keeps p) :
    SamePatterns t (declaratorPatterns p) (declaratorPatterns (t.place p)) := by
  have hdeclarator : ∀ c ∈ p.parts, ((·.isDeclarator) ∘ t.place) c = c.isDeclarator := by
    intro c hc
    rw [Bool.eq_iff_iff, Function.comp_apply, Place.isDeclarator, Place.isDeclarator, beq_iff_eq,
      beq_iff_eq]
    exact kind_place_eq_iff (stays_of_mem_parts h.mem hc) (by decide)
  have hkept : ∀ c ∈ p.parts.filter (·.isDeclarator), t.Keeps c := by
    intro c hc
    obtain ⟨hpart, hkind⟩ := List.mem_filter.mp hc
    exact keeps_of_kind (stays_of_mem_parts h.mem hpart) (by rw [beq_iff_eq.mp hkind]; decide)
  constructor
  · rw [declaratorPatterns, declaratorPatterns, h.parts, List.filter_map,
      List.filter_congr hdeclarator, List.map_map, List.map_map]
    exact List.map_congr_left fun c hc => (hkept c hc).childAs .name
  · intro pattern hpattern q hq
    obtain ⟨c, hc, rfl⟩ := List.mem_map.mp hpattern
    exact keeps_of_childAs (by decide) (hkept c hc) hq

/-- Kinds of expression are no kinds of declaration. -/
theorem not_declaration_of_openable {k : Kind} (h : k ∈ Kind.parenthesized :: openableKinds) :
    declarationKinds.contains k = false ∧ namedDeclarationKinds.contains k = false := by
  have hall : ∀ k ∈ Kind.parenthesized :: openableKinds,
      declarationKinds.contains k = false ∧ namedDeclarationKinds.contains k = false := by decide
  exact hall k h

theorem Keeps.samePatterns_block (h : t.Keeps p) :
    SamePatterns t (blockPatterns p) (blockPatterns (t.place p)) := by
  rw [blockPatterns, blockPatterns, h.parts]
  refine SamePatterns.flatMap fun c hc => ?_
  rcases (stays_of_mem_parts h.mem hc).cases with hkept | ⟨hct, hopened⟩
  · rw [hkept.kind]
    split_ifs
    · exact hkept.samePatterns_declarator
    · exact samePatterns_nil
  · have hplace := not_declaration_of_openable
      (List.mem_cons_of_mem _ (kind_place_of_opened hct hopened).1)
    have hself := not_declaration_of_openable (List.mem_cons_self (a := Kind.parenthesized))
    simp only [kind_of_opened hct hopened, hplace, hself, Bool.false_eq_true, if_false]
    exact samePatterns_nil

theorem Keeps.statementNames (h : t.Keeps p) :
    Binding.statementNames source' (t.place p) = Binding.statementNames source p := by
  rw [Binding.statementNames, Binding.statementNames, h.parts, List.flatMap_map]
  refine List.flatMap_congr fun c hc => ?_
  rcases (stays_of_mem_parts h.mem hc).cases with hkept | ⟨hct, hopened⟩
  · rw [hkept.kind, hkept.ownName]
  · have hplace := not_declaration_of_openable
      (List.mem_cons_of_mem _ (kind_place_of_opened hct hopened).1)
    have hself := not_declaration_of_openable (List.mem_cons_self (a := Kind.parenthesized))
    simp only [kind_of_opened hct hopened, hplace, hself, Bool.false_eq_true, if_false]

/-- A body that is a block is kept. -/
theorem Keeps.bodyBlock? (h : t.Keeps p) :
    Binding.bodyBlock? (t.place p) = (Binding.bodyBlock? p).map t.place ∧
      ∀ body, Binding.bodyBlock? p = some body → t.Keeps body := by
  rw [Binding.bodyBlock?, Binding.bodyBlock?, h.childAs]
  cases hc : p.childAs .body with
  | none => exact ⟨rfl, nofun⟩
  | some body =>
    have hstays := stays_of_childAs h hc
    have hkind : (t.place body).kind = Kind.statementBlock ↔ body.kind = Kind.statementBlock :=
      kind_place_eq_iff hstays (by decide)
    constructor
    · simp only [Option.map_some, Option.filter_some, hkind]
      split_ifs <;> rfl
    · intro body' hbody
      obtain ⟨heq, hblock⟩ := Option.filter_eq_some_iff.mp hbody
      cases heq
      exact keeps_of_kind hstays (by rw [of_decide_eq_true hblock]; decide)

theorem Keeps.samePatterns_scope (h : t.Keeps p) :
    SamePatterns t (scopePatterns p) (scopePatterns (t.place p)) := by
  rw [scopePatterns, scopePatterns, h.kind]
  cases scopeSort p.kind with
  | function =>
    refine (h.samePatterns_childAs (by decide)).append
      ((h.samePatterns_childAs (by decide)).append ?_)
    obtain ⟨hbody, hkept⟩ := h.bodyBlock?
    rw [hbody]
    cases hblock : Binding.bodyBlock? p with
    | none => exact samePatterns_nil
    | some body => exact (hkept body hblock).samePatterns_block
  | loop =>
    simp only [h.childAs]
    cases hstart : p.childAs .initializer with
    | none => exact samePatterns_nil
    | some start =>
      have hkept := keeps_of_childAs (by decide) h hstart
      simp only [Option.map_some, hkept.kind]
      split_ifs
      · exact hkept.samePatterns_declarator
      · exact samePatterns_nil
  | iteration =>
    have hkind : ((t.place p).childAs .kind).isSome = (p.childAs .kind).isSome := by
      rw [h.childAs, Option.isSome_map]
    simp only [hkind]
    split_ifs
    · exact h.samePatterns_childAs (by decide)
    · exact samePatterns_nil
  | handler => exact h.samePatterns_childAs (by decide)
  | block => exact h.samePatterns_block

theorem Keeps.scopeNames (h : t.Keeps p) :
    Binding.scopeNames source' (t.place p) = Binding.scopeNames source p := by
  rw [Binding.scopeNames, Binding.scopeNames, h.kind]
  cases scopeSort p.kind with
  | function =>
    obtain ⟨hbody, hkept⟩ := h.bodyBlock?
    simp only [h.ownName, hbody]
    cases hblock : Binding.bodyBlock? p with
    | none => simp only [Option.map_none, Option.elim_none]
    | some body =>
      simp only [Option.map_some, Option.elim_some, (hkept body hblock).statementNames]
  | block => exact h.statementNames
  | loop => rfl
  | iteration => rfl
  | handler => rfl

theorem Keeps.declaredNames (h : t.Keeps p) :
    Binding.declaredNames source' (t.place p) = Binding.declaredNames source p := by
  obtain ⟨heq, hkept⟩ := h.samePatterns_scope
  have hbound : (((scopePatterns p).map (Option.map t.place)).flatMap boundNames?).map source'.textOf =
      ((scopePatterns p).flatMap boundNames?).map source.textOf := by
    rw [List.flatMap_map, List.map_flatMap, List.map_flatMap]
    exact List.flatMap_congr fun pattern hpattern => map_textOf_boundNames? (hkept pattern hpattern)
  rw [Binding.declaredNames, Binding.declaredNames, h.scopeNames, heq, hbound]

/-- Parentheses are no scopes, so going up leads to the same scope. -/
theorem find?_ancestors (h : t.Stays p) {kinds : List Kind}
    (hkinds : Kind.parenthesized ∉ kinds) :
    (t.place p).ancestors.find? (kinds.contains ·.kind) =
      (p.ancestors.find? (kinds.contains ·.kind)).map t.place := by
  rw [ancestors_place h, List.find?_map, List.find?_filter, ← List.head?_filter, ← List.head?_filter]
  congr 2
  refine List.filter_congr fun a ha => ?_
  have hstays : t.Stays a := stays_of_mem_ancestors h.mem ha
  rcases hstays.cases with hkept | ⟨hat, hopened⟩
  · simp [hkept.fate, hkept.kind]
  · simp [hopened, kind_of_opened hat hopened, hkinds]

/-- The statement that a declarator stands in. -/
theorem exists_declaration (h : t.Keeps p) (hk : p.isDeclarator) :
    p.parent? = none ∧ (t.place p).parent? = none ∨
      ∃ q, t.Keeps q ∧ p.parent? = some q ∧ (t.place p).parent? = some (t.place q) := by
  cases p with
  | root n =>
    rw [eq_root_of_mem_places h.mem, t.place_root]
    exact .inl ⟨rfl, rfl⟩
  | child q i n =>
    rcases h.stays.parent_cases with ⟨hkept, hchild⟩ | ⟨hopened, hplace⟩
    · exact .inr ⟨q, hkept, rfl, parent?_of_mem_children hchild⟩
    · -- a declarator is no expression inside parentheses
      have hkind : (child q i n).kind ∈ openableKinds := by
        rw [← h.kind, hplace]
        exact (kind_place_of_opened h.stays.parent.mem hopened).1
      rw [beq_iff_eq.mp hk] at hkind
      exact absurd hkind (by decide)

theorem Keeps.declaringScope? (h : t.Keeps p) (hk : p.isDeclarator) :
    Binding.declaringScope? (t.place p) = (Binding.declaringScope? p).map t.place := by
  rw [Binding.declaringScope?, Binding.declaringScope?]
  rcases exists_declaration h hk with ⟨hnone, hnone'⟩ | ⟨q, hq, hparent, hparent'⟩
  · rw [hnone, hnone']
    rfl
  · rw [hparent, hparent', Option.bind_some, Option.bind_some, hq.kind]
    split_ifs
    · exact find?_ancestors hq.stays (by decide)
    · exact @find?_ancestors _ _ t q hq.stays blockScopes (by decide)

theorem keeps_of_declaringScope? {scope : Place} (hp : p ∈ source.tree.places)
    (hs : Binding.declaringScope? p = some scope) : t.Keeps scope := by
  obtain ⟨habove, hscope⟩ := mem_ancestors_of_declaringScope hs
  refine keeps_of_kind (stays_of_mem_ancestors hp habove) fun hk => ?_
  rw [isScope, hk] at hscope
  exact absurd hscope (by decide)

end Scopes

section Uses

theorem Keeps.scopeKey (h : t.Keeps p) : Binding.scopeKey (t.place p) = Binding.scopeKey p := by
  rw [Binding.scopeKey, Binding.scopeKey, h.start, h.stop, h.kind]

theorem Keeps.isScope (h : t.Keeps p) : Binding.isScope (t.place p) = Binding.isScope p := by
  rw [Binding.isScope, Binding.isScope, h.kind]

/-- A scope is found by its key above a place exactly if it was before. -/
theorem contains_scopeKey {d : Place} (hd : t.Keeps d) {key : ScopeKey}
    (hkey : key.kind ≠ Kind.parenthesized) :
    ((t.place d).ancestors.map Binding.scopeKey).contains key =
      (d.ancestors.map Binding.scopeKey).contains key := by
  have hkept : ∀ a ∈ d.ancestors.filter (t.fate · = .kept),
      (Binding.scopeKey ∘ t.place) a = Binding.scopeKey a := by
    intro a ha
    obtain ⟨habove, hfate⟩ := List.mem_filter.mp ha
    have ha : t.Keeps a := ⟨mem_places_of_mem_ancestors hd.mem habove, of_decide_eq_true hfate⟩
    exact ha.scopeKey
  rw [ancestors_place hd.stays, List.map_map, List.map_congr_left hkept, Bool.eq_iff_iff,
    List.contains_iff_mem, List.contains_iff_mem, List.mem_map, List.mem_map]
  constructor
  · rintro ⟨a, ha, heq⟩
    exact ⟨a, (List.mem_filter.mp ha).1, heq⟩
  · rintro ⟨a, ha, rfl⟩
    have hkeeps : t.Keeps a := keeps_of_kind (stays_of_mem_ancestors hd.mem ha) hkey
    exact ⟨a, List.mem_filter.mpr ⟨ha, decide_eq_true hkeeps.fate⟩, rfl⟩

theorem shadows_place {d : Place} (hd : t.Keeps d) (h : t.Keeps p) (name : String) :
    shadows source' name ((t.place d).ancestors.map Binding.scopeKey) (t.place p) =
      shadows source name (d.ancestors.map Binding.scopeKey) p := by
  rw [shadows, shadows, h.isScope, h.scopeKey, h.declaredNames]
  cases hscope : Binding.isScope p with
  | false => rfl
  | true =>
    rw [contains_scopeKey hd]
    rintro hkind
    have hkind : p.kind = Kind.parenthesized := hkind
    rw [Binding.isScope, hkind] at hscope
    exact absurd hscope (by decide)

theorem agree_useVerdictAt {d : Place} (hd : t.Keeps d) (name : String) :
    t.Agree (useVerdictAt source name (d.ancestors.map Binding.scopeKey))
      (useVerdictAt source' name ((t.place d).ancestors.map Binding.scopeKey)) where
  kept q hq := by
    rw [useVerdictAt, useVerdictAt, useVerdict, useVerdict, shadows_place hd hq, hq.kind, hq.textOf, isElementName_place hq.stays]
  opened q hq hopened := by
    have hkind := kind_of_opened hq hopened
    have hscope : Binding.isScope q = false := by
      rw [Binding.isScope, hkind]
      decide
    have huse : useKinds.contains q.kind = false := by
      rw [hkind]
      decide
    rw [useVerdictAt, useVerdict, shadows, hscope, huse]
    rfl
  dropped q hq hdropped htake := by
    refine (t.trivia q hq hdropped).noName (isIdentifier_of_useKinds ?_)
    exact useKinds_contains.mpr (useVerdictAt_eq_take_iff.mp htake).1

theorem usesIn_place {d scope : Place} (hd : t.Keeps d) (hscope : t.Keeps scope) (name : String) :
    usesIn source' (t.place scope) name (t.place d) = (usesIn source scope name d).map t.place := by
  rw [usesIn_eq, usesIn_eq]
  exact hscope.flatMap_search (agree_useVerdictAt hd name)

theorem keeps_of_mem_usesIn {d scope q : Place} (hd : t.Keeps d) (hscope : t.Keeps scope)
    {name : String} (hq : q ∈ usesIn source scope name d) : t.Keeps q := by
  rw [usesIn_eq, mem_flatMap_search_iff] at hq
  obtain ⟨hbelow, htake, _⟩ := hq
  have hqt := ((mem_descendants_iff hscope.mem).mp hbelow).1
  have agree := agree_useVerdictAt hd name
  refine ⟨hqt, ?_⟩
  cases hfate : t.fate q with
  | kept => rfl
  | opened => rw [agree.opened q hqt hfate] at htake; cases htake
  | dropped => exact absurd htake (agree.dropped q hqt hfate)

theorem places_variableOf_place {d scope binding : Place} (hd : t.Keeps d) (hscope : t.Keeps scope)
    (hbinding : t.Keeps binding) :
    (variableOf source' (t.place d) (t.place scope) (t.place binding)).places =
      (variableOf source d scope binding).places.map t.place := by
  have hstart : ∀ q ∈ usesIn source scope (source.textOf binding) d,
      ((fun q => decide (binding.stop ≤ q.start)) ∘ t.place) q =
        decide (binding.stop ≤ q.start) := by
    intro q hq
    rw [Function.comp_apply, (keeps_of_mem_usesIn hd hscope hq).start]
  rw [places_variableOf, places_variableOf, hbinding.textOf, hbinding.stop, usesIn_place hd hscope,
    List.filter_map, List.filter_congr hstart]

theorem Keeps.map_places_declaredVariables (h : t.Keeps p) :
    (declaredVariables source' (t.place p)).map Variable.places =
      (declaredVariables source p).map fun v => v.places.map t.place := by
  rw [declaredVariables, declaredVariables, h.isDeclarator]
  by_cases hk : p.isDeclarator
  · rw [if_pos hk, if_pos hk, h.declaringScope? hk, h.childAs]
    cases hs : Binding.declaringScope? p with
    | none => rfl
    | some scope =>
      have hscope : t.Keeps scope := keeps_of_declaringScope? h.mem hs
      cases hname : p.childAs .name with
      | none => rfl
      | some pattern =>
        have hpattern := keeps_of_childAs (by decide) h hname
        simp only [Option.map_some, boundNames?, Option.elim_some, hpattern.boundNames, List.map_map]
        refine List.map_congr_left fun binding hb => ?_
        exact places_variableOf_place h hscope (keeps_of_mem_boundNames hpattern hb)
  · rw [if_neg hk, if_neg hk]
    rfl

theorem keeps_of_mem_variable_places {v : Variable} {q : Place} (h : t.Keeps p)
    (hv : v ∈ declaredVariables source p) (hq : q ∈ v.places) : t.Keeps q := by
  obtain ⟨hscope, _, hvar⟩ := mem_declaredVariables hv
  rw [hvar, places_variableOf, List.mem_filter] at hq
  exact keeps_of_mem_usesIn h (keeps_of_declaringScope? h.mem hscope) hq.1

end Uses

end QueryLint.Code.Trimming
