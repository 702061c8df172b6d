import QueryLint.Proofs.Code.WellFormed

/-!
# What a pattern binds

The way from a pattern down to a name it binds goes through targets, values and items only: never into a
default value, never into a key and never into a type annotation. These are the names that are found, each
of them once and in source order, so whatever else is spelled inside a pattern declares nothing.
-/
namespace QueryLint.Binding

open QueryLint.Code QueryLint.Code.Place

section Shapes

variable {p c d : Place}

theorem boundInRole_eq (role : Role) (pattern : Place) (i : Nat) (ns : List Node) :
    boundInRole role pattern i ns =
      boundNames? ((pattern.childrenFrom i ns).find? (·.label.role = some role)) := by
  induction ns generalizing i with
  | nil => rfl
  | cons n ns ih =>
    have hlabel : (Place.child pattern i n).label = n.label := rfl
    rw [boundInRole, childrenFrom, List.find?_cons, ih, hlabel]
    by_cases hrole : n.label.role = some role
    · rw [if_pos hrole, decide_eq_true hrole]
      rfl
    · rw [if_neg hrole, decide_eq_false hrole]

theorem boundInParts_eq (pattern : Place) (i : Nat) (ns : List Node) :
    boundInParts pattern i ns =
      ((pattern.childrenFrom i ns).filter fun c =>
        c.kind ≠ Kind.comment && c.label.isNamed).flatMap boundNames := by
  induction ns generalizing i with
  | nil => rfl
  | cons n ns ih =>
    have hlabel : (Place.child pattern i n).label = n.label := rfl
    have hkind : (Place.child pattern i n).kind = n.kind := rfl
    rw [boundInParts, childrenFrom, List.filter_cons, ih, hlabel, hkind]
    by_cases hpart : n.label.isNamed ∧ n.kind ≠ Kind.comment
    · rw [if_pos hpart, if_pos (by simp [hpart]), List.flatMap_cons]
      rfl
    · rw [if_neg hpart, if_neg (by simpa [and_comm] using hpart), List.nil_append]

/-- What a pattern binds, by its shape. -/
theorem boundNames_eq (p : Place) :
    boundNames p =
      match shape p.kind with
      | .name => [p]
      | .inRole role => boundNames? (p.childAs role)
      | .inParts => p.parts.flatMap boundNames
      | .nowhere => [] := by
  rcases hp : p.node with ⟨l, cs⟩
  have hkind : p.kind = l.kind := by simp [Place.kind, label, hp, Node.label]
  have hchildren : p.children = p.childrenFrom 0 cs := by simp [children, hp, Node.children]
  rw [boundNames, hp, boundNode, hkind]
  cases shape l.kind with
  | name => rfl
  | inRole role => simp only [childAs, hchildren, boundInRole_eq]
  | inParts => simp only [parts_eq_filter, hchildren, boundInParts_eq]
  | nowhere => rfl

/-- Whether a place is a name that a pattern can bind. -/
def IsBindable (d : Place) : Prop :=
  d.kind = "identifier" ∨ d.kind = "shorthand_property_identifier_pattern"

/-- Whether the pattern `p` binds what its child `c` binds. -/
inductive BindsIn (p c : Place) : Prop where
  /-- The target of an assignment of a default value. -/
  | target (kind : p.kind = "assignment_pattern" ∨ p.kind = "object_assignment_pattern")
    (role : p.childAs .left = some c)
  /-- The value of a pair. -/
  | value (kind : p.kind = "pair_pattern") (role : p.childAs .value = some c)
  /-- The pattern of a parameter. -/
  | parameter (kind : p.kind = "required_parameter" ∨ p.kind = "optional_parameter")
    (role : p.childAs .pattern = some c)
  /-- A part of a pattern for several values, or a parameter among all. -/
  | item
    (kind : p.kind = "object_pattern" ∨ p.kind = "array_pattern" ∨ p.kind = "rest_pattern" ∨
      p.kind = "formal_parameters")
    (child : c ∈ p.children) (named : c.label.isNamed) (noComment : c.kind ≠ Kind.comment)

theorem isBindable_iff : IsBindable d ↔ shape d.kind = .name := by
  constructor
  · rintro (hkind | hkind) <;> rw [hkind] <;> decide
  · intro h
    unfold shape at h
    split_ifs at h with hkind
    simpa [IsBindable] using hkind

theorem bindsIn_iff :
    BindsIn p c ↔
      (∃ role, shape p.kind = .inRole role ∧ p.childAs role = some c) ∨
        shape p.kind = .inParts ∧ c ∈ p.parts := by
  constructor
  · rintro (⟨hkind, hrole⟩ | ⟨hkind, hrole⟩ | ⟨hkind, hrole⟩ | ⟨hkind, hchild, hnamed, hcomment⟩)
    · refine .inl ⟨.left, ?_, hrole⟩
      rcases hkind with hkind | hkind <;> rw [hkind] <;> decide
    · refine .inl ⟨.value, ?_, hrole⟩
      rw [hkind]
      decide
    · refine .inl ⟨.pattern, ?_, hrole⟩
      rcases hkind with hkind | hkind <;> rw [hkind] <;> decide
    · refine .inr ⟨?_, mem_parts_iff.mpr ⟨hchild, hcomment, hnamed⟩⟩
      rcases hkind with hkind | hkind | hkind | hkind <;> rw [hkind] <;> decide
  · rintro (⟨role, hshape, hrole⟩ | ⟨hshape, hpart⟩)
    · unfold shape at hshape
      split_ifs at hshape with _ htarget hpair hparameter <;> cases hshape
      · exact .target (by simpa using htarget) hrole
      · exact .value hpair hrole
      · exact .parameter (by simpa using hparameter) hrole
    · obtain ⟨hchild, hcomment, hnamed⟩ := mem_parts_iff.mp hpart
      unfold shape at hshape
      split_ifs at hshape with _ _ _ _ hitems
      exact .item (by simpa [Kind.formalParameters] using hitems) hchild hnamed hcomment

theorem BindsIn.mem_children (h : BindsIn p c) : c ∈ p.children := by
  cases h with
  | target _ role => exact mem_children_of_childAs role
  | value _ role => exact mem_children_of_childAs role
  | parameter _ role => exact mem_children_of_childAs role
  | item _ child => exact child

/-- A pattern binds itself if it is a name, and else what it binds in its children. -/
theorem mem_boundNames_iff_child :
    d ∈ boundNames p ↔ d = p ∧ IsBindable p ∨ ∃ c, BindsIn p c ∧ d ∈ boundNames c := by
  simp only [isBindable_iff, bindsIn_iff]
  rw [boundNames_eq]
  cases shape p.kind with
  | name => simp
  | inRole role => cases hchild : p.childAs role <;> simp [boundNames?, hchild]
  | inParts => simp
  | nowhere => simp

end Shapes

section Ways

variable {p d a c : Place}

/-- The step from `a` to its child `c` is on the way from `p` down to `d`. -/
structure OnWay (p d a c : Place) : Prop where
  below : a ∈ p.preorder
  child : c ∈ a.children
  above : d ∈ c.preorder

/-- A pattern binds the names that it leads to by steps to what it binds in. -/
theorem mem_boundNames_iff :
    d ∈ boundNames p ↔ d ∈ p.preorder ∧ IsBindable d ∧ ∀ a c, OnWay p d a c → BindsIn a c := by
  induction p using children_induction with
  | step p ih =>
    rw [mem_boundNames_iff_child]
    constructor
    · rintro (⟨rfl, hname⟩ | ⟨c, hc, hd⟩)
      · refine ⟨mem_preorder_self d, hname, fun a c hway => ?_⟩
        -- a step leads down, so there is none on the way from a place to itself
        have hdown := depth_of_mem_children hway.child
        have hbelow := depth_le_of_mem_preorder hway.below
        have habove := depth_le_of_mem_preorder hway.above
        omega
      · obtain ⟨hdc, hname, hsteps⟩ := (ih c hc.mem_children).mp hd
        have hdp : d ∈ p.preorder := mem_preorder_iff.mpr (.inr ⟨c, hc.mem_children, hdc⟩)
        refine ⟨hdp, hname, fun a e hway => ?_⟩
        rcases mem_preorder_iff.mp hway.below with rfl | ⟨c', hc', hac⟩
        · rw [eq_of_mem_preorder hway.child hc.mem_children hway.above hdc]
          exact hc
        · have hda : d ∈ a.preorder := mem_preorder_iff.mpr (.inr ⟨e, hway.child, hway.above⟩)
          have hsame : c' = c :=
            eq_of_mem_preorder hc' hc.mem_children (preorder_trans hac hda) hdc
          subst hsame
          exact hsteps a e ⟨hac, hway.child, hway.above⟩
    · rintro ⟨hd, hname, hsteps⟩
      rcases mem_preorder_iff.mp hd with rfl | ⟨c, hc, hdc⟩
      · exact .inl ⟨rfl, hname⟩
      · have hfirst : BindsIn p c := hsteps p c ⟨mem_preorder_self p, hc, hdc⟩
        refine .inr ⟨c, hfirst, (ih c hc).mpr ⟨hdc, hname, fun a e hway => ?_⟩⟩
        have hap : a ∈ p.preorder := preorder_trans (mem_preorder_of_mem_children hc) hway.below
        exact hsteps a e ⟨hap, hway.child, hway.above⟩

theorem boundNames_sublist (p : Place) : (boundNames p).Sublist p.preorder := by
  induction p using children_induction with
  | step p ih =>
    rw [boundNames_eq]
    cases shape p.kind with
    | name =>
      rw [preorder_eq]
      exact (List.nil_sublist _).cons_cons p
    | inRole role =>
      change (boundNames? (p.childAs role)).Sublist p.preorder
      cases hchild : p.childAs role with
      | none => exact List.nil_sublist _
      | some c =>
        have hc := mem_children_of_childAs hchild
        exact (ih c hc).trans (preorder_sublist (mem_preorder_of_mem_children hc))
    | inParts =>
      have hparts : p.parts.Sublist p.children := by
        rw [parts_eq_filter]
        exact List.filter_sublist
      have hnames : (p.parts.flatMap boundNames).Sublist (p.parts.flatMap preorder) :=
        List.Sublist.flatMap_right _ fun c hc => ih c (mem_children_of_mem_parts hc)
      rw [preorder_eq]
      exact (hnames.trans (hparts.flatMap preorder)).cons p
    | nowhere => exact List.nil_sublist _

/-- Whether the child `c` of `a` is something in a pattern that is no pattern itself. -/
inductive IsAside (a c : Place) : Prop where
  /-- The default value in an assignment. -/
  | default (kind : a.kind = "assignment_pattern" ∨ a.kind = "object_assignment_pattern")
    (role : a.childAs .left ≠ some c)
  /-- The type or the default value of a parameter. -/
  | parameter (kind : a.kind = "required_parameter" ∨ a.kind = "optional_parameter")
    (role : a.childAs .pattern ≠ some c)
  /-- The key of a pair. -/
  | key (kind : a.kind = "pair_pattern") (role : a.childAs .value ≠ some c)
  /-- A computed key or a type annotation, wherever it stands. -/
  | foreign (kind : c.kind = "computed_property_name" ∨ c.kind = "type_annotation")

theorem BindsIn.childAs (h : BindsIn a c) {role : Role} (hshape : shape a.kind = .inRole role) :
    a.childAs role = some c := by
  rw [bindsIn_iff, hshape] at h
  rcases h with ⟨role', heq, hrole⟩ | ⟨hparts, _⟩
  · cases heq
    exact hrole
  · cases hparts

/-- The way to a bound name leads past whatever is no pattern. -/
theorem not_isAside_of_mem_boundNames (hd : d ∈ boundNames p) (hway : OnWay p d a c) :
    ¬ IsAside a c := by
  obtain ⟨_, hname, hsteps⟩ := mem_boundNames_iff.mp hd
  have hbinds : BindsIn a c := hsteps a c hway
  rintro (⟨hkind, hrole⟩ | ⟨hkind, hrole⟩ | ⟨hkind, hrole⟩ | hkind)
  · refine hrole (hbinds.childAs ?_)
    rcases hkind with hkind | hkind <;> rw [hkind] <;> decide
  · refine hrole (hbinds.childAs ?_)
    rcases hkind with hkind | hkind <;> rw [hkind] <;> decide
  · refine hrole (hbinds.childAs ?_)
    rw [hkind]
    decide
  · have hshape : shape c.kind = .nowhere := by
      rcases hkind with hkind | hkind <;> rw [hkind] <;> decide
    rcases mem_preorder_iff.mp hway.above with rfl | ⟨e, he, hde⟩
    · rw [isBindable_iff, hshape] at hname
      cases hname
    · have hcp : c ∈ p.preorder :=
        preorder_trans hway.below (mem_preorder_of_mem_children hway.child)
      have hnext : BindsIn c e := hsteps c e ⟨hcp, he, hde⟩
      rw [bindsIn_iff, hshape] at hnext
      simp at hnext

end Ways

section Declarations

variable {source : Source} {scope p : Place} {name : String}

/-- Whether `e` stands where a scope looks for declarations: directly in it, directly in its body, or at
its head as the start of a loop. -/
def IsStatementOf (scope e : Place) : Prop :=
  e ∈ scope.parts ∨ (∃ body, scope.childAs .body = some body ∧ e ∈ body.parts) ∨
    scope.childAs .initializer = some e

/-- Whether a scope declares the name at `d` for what lies in it. -/
inductive Declares (scope d : Place) : Prop where
  /-- By its parameters, or by the pattern of a loop. -/
  | head {role : Role} {q : Place} (part : role = .parameters ∨ role = .parameter ∨ role = .left)
    (pattern : scope.childAs role = some q) (bound : d ∈ boundNames q)
  /-- By a declarator in a statement. -/
  | declarator {statement e q : Place} (direct : IsStatementOf scope statement)
    (part : e ∈ statement.parts) (kind : e.isDeclarator) (pattern : e.childAs .name = some q)
    (bound : d ∈ boundNames q)
  /-- By a statement that has a name. -/
  | named {statement : Place} (direct : IsStatementOf scope statement)
    (kind : statement.kind ∈ namedDeclarationKinds) (isName : statement.childAs .name = some d)
  /-- As its own name. -/
  | own (kind : scope.kind ∈ selfNamingKinds) (isName : scope.childAs .name = some d)

theorem exists_of_mem_ownName (h : name ∈ ownName source p) :
    ∃ d, p.childAs .name = some d ∧ source.textOf d = name := by
  unfold ownName at h
  split at h
  · cases h
  · next own _ hown =>
    obtain ⟨d, hd, htext⟩ := Option.bind_eq_some_iff.mp hown
    unfold Source.nameOf? at htext
    split_ifs at htext
    exact ⟨d, hd, (Option.some.inj htext).trans (List.mem_singleton.mp h).symm⟩
  · cases h

variable {q d : Place}

/-- Whether `q` is a pattern by which a scope declares names. -/
inductive HasPattern (scope q : Place) : Prop where
  | head {role : Role} (part : role = .parameters ∨ role = .parameter ∨ role = .left)
    (pattern : scope.childAs role = some q)
  | declarator {statement e : Place} (direct : IsStatementOf scope statement)
    (part : e ∈ statement.parts) (kind : e.isDeclarator) (pattern : e.childAs .name = some q)

theorem HasPattern.declares (h : HasPattern scope q) (hd : d ∈ boundNames q) : Declares scope d := by
  cases h with
  | head part pattern => exact .head part pattern hd
  | declarator direct part kind pattern => exact .declarator direct part kind pattern hd

theorem IsStatementOf.mem_preorder (h : IsStatementOf scope p) : p ∈ scope.preorder := by
  rcases h with hpart | ⟨body, hbody, hpart⟩ | hstart
  · exact mem_preorder_of_mem_children (mem_children_of_mem_parts hpart)
  · exact preorder_trans (mem_preorder_of_mem_children (mem_children_of_childAs hbody))
      (mem_preorder_of_mem_children (mem_children_of_mem_parts hpart))
  · exact mem_preorder_of_mem_children (mem_children_of_childAs hstart)

theorem HasPattern.mem_preorder (h : HasPattern scope q) : q ∈ scope.preorder := by
  cases h with
  | head _ pattern => exact mem_preorder_of_mem_children (mem_children_of_childAs pattern)
  | @declarator statement e direct part _ pattern =>
    have hdeclarator : e ∈ scope.preorder := preorder_trans direct.mem_preorder
      (mem_preorder_of_mem_children (mem_children_of_mem_parts part))
    exact preorder_trans hdeclarator (mem_preorder_of_mem_children (mem_children_of_childAs pattern))

theorem hasPattern_of_mem_declaratorPatterns (hp : IsStatementOf scope p)
    (hq : some q ∈ declaratorPatterns p) : HasPattern scope q := by
  obtain ⟨e, he, hname⟩ := List.mem_map.mp hq
  obtain ⟨hpart, hkind⟩ := List.mem_filter.mp he
  exact .declarator hp hpart hkind hname

theorem hasPattern_of_mem_blockPatterns (hp : ∀ e ∈ p.parts, IsStatementOf scope e)
    (hq : some q ∈ blockPatterns p) : HasPattern scope q := by
  obtain ⟨statement, hstatement, hq⟩ := List.mem_flatMap.mp hq
  split_ifs at hq
  · exact hasPattern_of_mem_declaratorPatterns (hp statement hstatement) hq
  · cases hq

theorem exists_of_mem_statementNames (hp : ∀ e ∈ p.parts, IsStatementOf scope e)
    (h : name ∈ statementNames source p) : ∃ d, Declares scope d ∧ source.textOf d = name := by
  obtain ⟨statement, hstatement, hname⟩ := List.mem_flatMap.mp h
  split_ifs at hname with hkind
  · obtain ⟨d, hd, htext⟩ := exists_of_mem_ownName hname
    exact ⟨d, .named (hp statement hstatement) (List.contains_iff_mem.mp hkind) hd, htext⟩
  · cases hname

theorem isStatementOf_of_bodyBlock? {body : Place} (h : bodyBlock? scope = some body) :
    ∀ e ∈ body.parts, IsStatementOf scope e := fun _ he =>
  .inr (.inl ⟨body, (Option.filter_eq_some_iff.mp h).1, he⟩)

theorem hasPattern_of_mem_scopePatterns (hq : some q ∈ scopePatterns scope) : HasPattern scope q := by
  unfold scopePatterns at hq
  cases hsort : scopeSort scope.kind with
  | function =>
    simp only [hsort, List.mem_cons] at hq
    rcases hq with hq | hq | hq
    · exact .head (.inl rfl) hq.symm
    · exact .head (.inr (.inl rfl)) hq.symm
    · cases hbody : bodyBlock? scope with
      | none => simp [hbody] at hq
      | some body =>
        rw [hbody] at hq
        exact hasPattern_of_mem_blockPatterns (isStatementOf_of_bodyBlock? hbody) hq
  | loop =>
    simp only [hsort] at hq
    split at hq
    · next start hstart =>
      split_ifs at hq
      · exact hasPattern_of_mem_declaratorPatterns (.inr (.inr hstart)) hq
      · cases hq
    · cases hq
  | iteration =>
    simp only [hsort] at hq
    split_ifs at hq
    · exact .head (.inr (.inr rfl)) (List.mem_singleton.mp hq).symm
    · cases hq
  | handler =>
    simp only [hsort, List.mem_singleton] at hq
    exact .head (.inr (.inl rfl)) hq.symm
  | block =>
    simp only [hsort] at hq
    exact hasPattern_of_mem_blockPatterns (fun e he => .inl he) hq

theorem exists_of_mem_scopeNames (h : name ∈ scopeNames source scope) :
    ∃ d, Declares scope d ∧ source.textOf d = name := by
  unfold scopeNames at h
  split at h
  · rcases List.mem_append.mp h with hown | hbody
    · split_ifs at hown with hkind
      · obtain ⟨d, hd, htext⟩ := exists_of_mem_ownName hown
        exact ⟨d, .own (List.contains_iff_mem.mp hkind) hd, htext⟩
      · cases hown
    · cases hblock : bodyBlock? scope with
      | none => simp [hblock] at hbody
      | some body =>
        rw [hblock] at hbody
        exact exists_of_mem_statementNames (isStatementOf_of_bodyBlock? hblock) hbody
  · exact exists_of_mem_statementNames (fun e he => .inl he) h
  · cases h

theorem mem_boundNames?_iff {pattern : Option Place} :
    d ∈ boundNames? pattern ↔ ∃ q, pattern = some q ∧ d ∈ boundNames q := by
  cases pattern <;> simp [boundNames?]

/-- Whatever a scope declares is bound by one of its patterns, or is the name of the scope or of a
statement. -/
theorem exists_of_mem_declaredNames (h : name ∈ declaredNames source scope) :
    ∃ d, Declares scope d ∧ source.textOf d = name := by
  rcases List.mem_append.mp h with hbound | hname
  · obtain ⟨d, hd, rfl⟩ := List.mem_map.mp hbound
    obtain ⟨pattern, hpattern, hd⟩ := List.mem_flatMap.mp hd
    obtain ⟨q, rfl, hd⟩ := mem_boundNames?_iff.mp hd
    exact ⟨d, (hasPattern_of_mem_scopePatterns hpattern).declares hd, rfl⟩
  · exact exists_of_mem_scopeNames hname

end Declarations

/-- A pattern binds exactly the names that it leads to by targets, values and items alone, each once and in
source order. So a name inside a default value, a key or a type annotation is not bound, and what a scope
declares is what its patterns bind, besides the names of functions and classes. -/
theorem boundNames_exact (source : Source) (p : Place) :
    (∀ d, d ∈ boundNames p ↔
        d ∈ p.preorder ∧ IsBindable d ∧ ∀ a c, OnWay p d a c → BindsIn a c) ∧
      (boundNames p).Sublist p.preorder ∧ (boundNames p).Nodup ∧
      (∀ d ∈ boundNames p, ∀ a c, OnWay p d a c → ¬ IsAside a c) ∧
      ∀ scope, ∀ name ∈ declaredNames source scope,
        ∃ d, Declares scope d ∧ source.textOf d = name := by
  have hsub : (boundNames p).Sublist p.preorder := boundNames_sublist p
  refine ⟨fun d => mem_boundNames_iff, hsub, (nodup_preorder p).sublist hsub, ?_, ?_⟩
  · intro d hd a c hway
    exact not_isAside_of_mem_boundNames hd hway
  · intro scope name hname
    exact exists_of_mem_declaredNames hname

/-- `{ a = b, [k]: [c, ...d] }` -/
def takenApart : Node :=
  .named "object_pattern" 0 25 none [
    .token "\x7b" 0 1,
    .named "object_assignment_pattern" 2 7 none [
      .named "shorthand_property_identifier_pattern" 2 3 (some .left) [], .token "=" 4 5,
      .named "identifier" 6 7 none []],
    .token "," 7 8,
    .named "pair_pattern" 9 23 none [
      .named "computed_property_name" 9 12 none [
        .token "[" 9 10, .named "identifier" 10 11 none [], .token "]" 11 12],
      .token ":" 12 13,
      .named "array_pattern" 14 23 (some .value) [
        .token "[" 14 15, .named "identifier" 15 16 none [], .token "," 16 17,
        .named "rest_pattern" 18 22 none [
          .token "..." 18 21, .named "identifier" 21 22 none []],
        .token "]" 22 23]],
    .token "\x7d" 24 25]

example : (boundNames (.root takenApart)).map (·.start) = [2, 15, 21] := by decide

end QueryLint.Binding
