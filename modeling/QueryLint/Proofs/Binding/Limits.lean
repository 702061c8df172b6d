import QueryLint.Proofs.Binding.Patterns
import QueryLint.Proofs.Binding.Uses
import QueryLint.Proofs.Limits

/-!
# Variables within limits

A pattern is taken apart by calls that stand inside each other, as deep as the pattern is nested. So the
variables of a declarator are found unless one of the patterns that have to be taken apart is nested too
deep: the target of the declarator itself, or a pattern of a scope that the search for uses comes to. Where
they are found, they are what they would be without limits.
-/
namespace QueryLint.Binding

open QueryLint.Code QueryLint.Code.Place

section Patterns

variable {p : Place} {n : Nat} {room : Option Nat}

/-- Whether `n` calls stand inside each other while a pattern is taken apart. -/
inductive Nests : Option Place → Nat → Prop where
  /-- The call for the pattern itself, which may not be there. -/
  | call (pattern : Option Place) : Nests pattern 1
  /-- Inside it, a call for the part that binds. -/
  | role {p : Place} {role : Role} {n : Nat} (shape : shape p.kind = .inRole role)
    (inside : Nests (p.childAs role) n) : Nests (some p) (n + 1)
  /-- Inside it, a call for each part. -/
  | part {p c : Place} {n : Nat} (shape : shape p.kind = .inParts) (part : c ∈ p.parts)
    (inside : Nests (some c) n) : Nests (some p) (n + 1)

/-- Whether there is no room for the calls that take a pattern apart. -/
def IsTooDeep (room : Option Nat) (pattern : Option Place) : Prop :=
  ∃ n, room = some n ∧ Nests pattern (n + 1)

theorem isTooDeep_iff {pattern : Option Place} :
    IsTooDeep (some n) pattern ↔ Nests pattern (n + 1) := by
  constructor
  · rintro ⟨_, ⟨⟩, hnests⟩
    exact hnests
  · exact fun hnests => ⟨n, rfl, hnests⟩

theorem not_nests_none : ¬ Nests none (n + 2) := nofun

theorem nests_some_iff :
    Nests (some p) (n + 2) ↔
      (∃ role, shape p.kind = .inRole role ∧ Nests (p.childAs role) (n + 1)) ∨
        shape p.kind = .inParts ∧ ∃ c ∈ p.parts, Nests (some c) (n + 1) := by
  constructor
  · rintro (_ | ⟨hshape, hinside⟩ | ⟨hshape, hpart, hinside⟩)
    · exact .inl ⟨_, hshape, hinside⟩
    · exact .inr ⟨hshape, _, hpart, hinside⟩
  · rintro (⟨role, hshape, hinside⟩ | ⟨hshape, c, hpart, hinside⟩)
    · exact .role hshape hinside
    · exact .part hshape hpart hinside

/-- A part that is not there takes a call, and no more. -/
theorem isTooDeep_none_iff : IsTooDeep room none ↔ room = some 0 := by
  constructor
  · rintro ⟨_ | n, rfl, hnests⟩
    · rfl
    · exact absurd hnests not_nests_none
  · rintro rfl
    exact ⟨0, rfl, .call none⟩

/-- A pattern is too deep without room for its call, or if something in it is too deep for what is left. -/
theorem isTooDeep_some_iff :
    IsTooDeep room (some p) ↔
      room = some 0 ∨
        match shape p.kind with
        | .inRole role => IsTooDeep (room.map (· - 1)) (p.childAs role)
        | .inParts => ∃ c ∈ p.parts, IsTooDeep (room.map (· - 1)) (some c)
        | _ => False := by
  match room with
  | none => cases shape p.kind <;> simp [IsTooDeep]
  | some 0 =>
    simp only [true_or, iff_true]
    exact ⟨0, rfl, .call _⟩
  | some (n + 1) =>
    rw [isTooDeep_iff, nests_some_iff]
    cases shape p.kind <;> simp [isTooDeep_iff]

/-- Calls stand inside each other only if the tree goes that deep. -/
theorem exists_deep_of_nests (h : Nests (some p) (n + 2)) : ∃ q ∈ p.preorder, p.depth + n ≤ q.depth := by
  induction n generalizing p with
  | zero => exact ⟨p, mem_preorder_self p, le_rfl⟩
  | succ n ih =>
    have hchild : ∃ c ∈ p.children, Nests (some c) (n + 2) := by
      rcases nests_some_iff.mp h with ⟨role, -, hinside⟩ | ⟨-, c, hpart, hinside⟩
      · cases hc : p.childAs role with
        | none => exact absurd (hc ▸ hinside) not_nests_none
        | some c => exact ⟨c, mem_children_of_childAs hc, hc ▸ hinside⟩
      · exact ⟨c, mem_children_of_mem_parts hpart, hinside⟩
    obtain ⟨c, hc, hinside⟩ := hchild
    obtain ⟨q, hq, hdeep⟩ := ih hinside
    rw [depth_of_mem_children hc] at hdeep
    exact ⟨q, preorder_trans (mem_preorder_of_mem_children hc) hq, by omega⟩

/-- In a tree with less levels than there is room, nothing is too deep. -/
theorem not_isTooDeep_of_shallow {tree : Node} {pattern : Option Place}
    (hpattern : ∀ p ∈ pattern, p ∈ tree.places)
    (hshallow : ∀ m, room = some m → ∀ q ∈ tree.places, q.depth + 1 < m) :
    ¬ IsTooDeep room pattern := by
  rintro ⟨m, hroom, hnests⟩
  have hroot := hshallow m hroom (.root tree) (mem_preorder_self _)
  obtain ⟨k, rfl⟩ : ∃ k, m = k + 1 := ⟨m - 1, by omega⟩
  cases pattern with
  | none => exact not_nests_none hnests
  | some p =>
    obtain ⟨q, hq, hdeep⟩ := exists_deep_of_nests hnests
    have := hshallow _ hroom q (preorder_trans (hpattern p rfl) hq)
    omega

theorem boundInRoleWithin_eq (role : Role) (pattern : Place) (i : Nat) (ns : List Node) :
    boundInRoleWithin role room pattern i ns =
      boundWithin room ((pattern.childrenFrom i ns).find? (·.label.role = some role)) := by
  induction ns generalizing i with
  | nil => rfl
  | cons n ns ih =>
    have hlabel : (Place.child pattern i n).label = n.label := rfl
    rw [boundInRoleWithin, childrenFrom, List.find?_cons, ih, hlabel]
    by_cases hrole : n.label.role = some role
    · rw [if_pos hrole, decide_eq_true hrole]
      rfl
    · rw [if_neg hrole, decide_eq_false hrole]

theorem boundInPartsWithin_eq (pattern : Place) (i : Nat) (ns : List Node) :
    boundInPartsWithin room pattern i ns =
      (((pattern.childrenFrom i ns).filter fun c =>
        c.kind ≠ Kind.comment && c.label.isNamed).mapM fun c => boundWithin room (some c)).map
          List.flatten := by
  induction ns generalizing i with
  | nil => rfl
  | cons n ns ih =>
    have hlabel : (Place.child pattern i n).label = n.label := rfl
    have hkind : (Place.child pattern i n).kind = n.kind := rfl
    rw [boundInPartsWithin, childrenFrom, List.filter_cons, ih, hlabel, hkind]
    by_cases hpart : n.label.isNamed ∧ n.kind ≠ Kind.comment
    · have hcall : boundWithin room (some (pattern.child i n)) =
          boundNodeWithin room (pattern.child i n) n := rfl
      rw [if_pos hpart, if_pos (by simp [hpart]), List.mapM_cons, hcall]
      cases boundNodeWithin room (pattern.child i n) n with
      | error e => rfl
      | ok found =>
        generalize (List.mapM _ _ : Except TooDeep (List (List Place))) = rest
        cases rest <;> rfl
    · rw [if_neg hpart, if_neg (by simpa [and_comm] using hpart)]
      generalize (List.mapM _ _ : Except TooDeep (List (List Place))) = rest
      cases rest <;> rfl

/-- The calls for a pattern, by its shape. -/
theorem boundWithin_some (room : Option Nat) (p : Place) :
    boundWithin room (some p) = enter room >>= fun room =>
      match shape p.kind with
      | .name => .ok [p]
      | .inRole role => boundWithin room (p.childAs role)
      | .inParts => (p.parts.mapM fun c => boundWithin room (some c)).map List.flatten
      | .nowhere => .ok [] := by
  rcases hp : p.node with ⟨l, cs⟩
  have hkind : p.kind = l.kind := by simp [Place.kind, label, hp, Node.label]
  have hchildren : p.children = p.childrenFrom 0 cs := by simp [children, hp, Node.children]
  rw [boundWithin, hp, boundNodeWithin, hkind]
  refine congrArg _ (funext fun room => ?_)
  cases shape l.kind with
  | name => rfl
  | inRole role => simp only [childAs, hchildren, boundInRoleWithin_eq]
  | inParts => simp only [parts_eq_filter, hchildren, boundInPartsWithin_eq]
  | nowhere => rfl

theorem failsIff_boundWithin_none (room : Option Nat) :
    FailsIff (boundWithin room none) (IsTooDeep room none) ⟨⟩ [] :=
  ((failsIff_enter room).map fun _ => []).congr isTooDeep_none_iff

/-- A pattern is taken apart unless it is too deep. -/
theorem failsIff_boundWithin (room : Option Nat) (pattern : Option Place) :
    FailsIff (boundWithin room pattern) (IsTooDeep room pattern) ⟨⟩ (boundNames? pattern) := by
  cases pattern with
  | none => exact failsIff_boundWithin_none room
  | some p =>
    induction p using children_induction generalizing room with
    | step p ih =>
      have hnames := boundNames_eq p
      rw [boundWithin_some, boundNames?, Option.elim_some]
      refine FailsIff.congr ((failsIff_enter room).bind fun _ => ?_) isTooDeep_some_iff
      cases hshape : shape p.kind with
      | name =>
        rw [hshape] at hnames
        rw [hnames]
        exact .of_ok [p] (⟨⟩ : TooDeep)
      | nowhere =>
        rw [hshape] at hnames
        rw [hnames]
        exact .of_ok [] (⟨⟩ : TooDeep)
      | inRole role =>
        rw [hshape] at hnames
        rw [hnames]
        change FailsIff (boundWithin (room.map (· - 1)) (p.childAs role))
          (IsTooDeep (room.map (· - 1)) (p.childAs role)) ⟨⟩ (boundNames? (p.childAs role))
        cases hchild : p.childAs role with
        | none => exact failsIff_boundWithin_none _
        | some c => exact ih c (mem_children_of_childAs hchild) _
      | inParts =>
        rw [hshape] at hnames
        rw [hnames, List.flatMap_def]
        exact (FailsIff.mapM fun c hc => ih c (mem_children_of_mem_parts hc) _).map List.flatten

end Patterns

section Scopes

variable {source : Source}

theorem failsIff_declaredNamesWithin (room : Option Nat) (p : Place) :
    FailsIff (declaredNamesWithin source room p) (∃ pattern ∈ scopePatterns p, IsTooDeep room pattern)
      ⟨⟩ (declaredNames source p) := by
  rw [declaredNames, List.flatMap_def]
  exact (FailsIff.mapM fun pattern _ => failsIff_boundWithin room pattern).map fun bound =>
    bound.flatten.map source.textOf ++ scopeNames source p

/-- Only a scope that does not enclose the declarator is asked for what it declares. -/
theorem failsIff_shadowsWithin (source : Source) (room : Option Nat) (name : String) (enclosing : List ScopeKey)
    (p : Place) :
    FailsIff (shadowsWithin source room name enclosing p)
      (isScope p ∧ scopeKey p ∉ enclosing ∧ ∃ pattern ∈ scopePatterns p, IsTooDeep room pattern) ⟨⟩
      (shadows source name enclosing p) := by
  by_cases hasked : isScope p ∧ scopeKey p ∉ enclosing
  · have hcond : (isScope p && !enclosing.contains (scopeKey p)) = true := by simpa using hasked
    rw [shadowsWithin, shadows, if_pos hcond, hcond, Bool.true_and]
    exact ((failsIff_declaredNamesWithin room p).map fun names => names.contains name).congr
      (by simp [hasked])
  · have hcond : (isScope p && !enclosing.contains (scopeKey p)) = false := by
      rw [← Bool.not_eq_true]
      simpa using hasked
    rw [shadowsWithin, shadows, hcond, if_neg Bool.false_ne_true, Bool.false_and]
    exact (FailsIff.of_ok false (⟨⟩ : TooDeep)).congr
      (iff_false_intro fun hbad => hasked ⟨hbad.1, hbad.2.1⟩)

/-- Whether the search in a scope for the uses of a name asks what the scope `b` declares. -/
structure Asks (source : Source) (scope : Place) (name : String) (declarator b : Place) : Prop where
  met : ∃ c ∈ scope.children,
    Meets (useVerdictAt source name (declarator.ancestors.map scopeKey)) c b
  scope : isScope b
  apart : scopeKey b ∉ declarator.ancestors.map scopeKey

theorem failsIff_usesWithin (room : Option Nat) (scope : Place) (name : String) (declarator : Place) :
    FailsIff (usesWithin source room scope name declarator)
      (∃ b, Asks source scope name declarator b ∧ ∃ pattern ∈ scopePatterns b, IsTooDeep room pattern)
      ⟨⟩ (usesIn source scope name declarator) := by
  have hsearch := failsIff_searchOn
    (fun p => (failsIff_shadowsWithin source room name
      (declarator.ancestors.map scopeKey) p).map (useVerdict source name p))
    (push [] scope.children.reverse)
  rw [push_reverse, List.append_nil] at hsearch
  rw [usesIn_eq, usesWithin, push_reverse, List.append_nil]
  refine hsearch.congr ⟨?_, ?_⟩
  · rintro ⟨b, ⟨⟨c, hc, hmet⟩, hscope, hapart⟩, hdeep⟩
    exact ⟨c, hc, b, hmet, hscope, hapart, hdeep⟩
  · rintro ⟨c, hc, b, hmet, hscope, hapart, hdeep⟩
    exact ⟨b, ⟨⟨c, hc, hmet⟩, hscope, hapart⟩, hdeep⟩

/-- Whether a pattern is taken apart for the variables of a declarator: its own target, or a pattern of a
scope that the search for the uses of a name in the target asks. -/
inductive TakesApart (source : Source) (declarator : Place) : Option Place → Prop where
  | target {scope : Place} (declares : declarator.isDeclarator)
    (belongs : declaringScope? declarator = some scope) :
    TakesApart source declarator (declarator.childAs .name)
  | between {scope binding b : Place} {pattern : Option Place} (declares : declarator.isDeclarator)
    (belongs : declaringScope? declarator = some scope)
    (binds : binding ∈ boundNames? (declarator.childAs .name))
    (asks : Asks source scope (source.textOf binding) declarator b)
    (declared : pattern ∈ scopePatterns b) : TakesApart source declarator pattern

/-- The variables of a declarator are found unless a pattern is too deep that is taken apart for them. -/
theorem failsIff_declaredVariablesWithin (room : Option Nat) (declarator : Place) :
    FailsIff (declaredVariablesWithin source room declarator)
      (∃ pattern, TakesApart source declarator pattern ∧ IsTooDeep room pattern) ⟨⟩
      (declaredVariables source declarator) := by
  rw [declaredVariablesWithin, declaredVariables]
  by_cases hk : declarator.isDeclarator
  · rw [if_pos hk, if_pos hk]
    cases hs : declaringScope? declarator with
    | none =>
      refine (FailsIff.of_ok [] (⟨⟩ : TooDeep)).congr (iff_false_intro ?_)
      rintro ⟨_, ⟨_, hbelongs⟩ | ⟨_, hbelongs, _⟩, _⟩ <;> cases hs.symm.trans hbelongs
    | some scope =>
      refine FailsIff.congr ((failsIff_boundWithin room (declarator.childAs .name)).bind fun _ =>
        FailsIff.mapM fun binding _ => (failsIff_usesWithin room scope (source.textOf binding)
          declarator).map (variableOver source scope binding)) ⟨?_, ?_⟩
      · rintro ⟨pattern, ⟨_, hbelongs⟩ | ⟨_, hbelongs, hbinds, hasks, hdeclared⟩, hdeep⟩
        · exact .inl hdeep
        · cases hs.symm.trans hbelongs
          exact .inr ⟨_, hbinds, _, hasks, pattern, hdeclared, hdeep⟩
      · rintro (hdeep | ⟨binding, hbinds, b, hasks, pattern, hdeclared, hdeep⟩)
        · exact ⟨_, .target hk hs, hdeep⟩
        · exact ⟨pattern, .between hk hs hbinds hasks hdeclared, hdeep⟩
  · rw [if_neg hk, if_neg hk]
    refine (FailsIff.of_ok [] (⟨⟩ : TooDeep)).congr (iff_false_intro ?_)
    rintro ⟨_, ⟨hdeclares, _⟩ | ⟨hdeclares, _⟩, _⟩ <;> exact hk hdeclares

/-- Whatever is taken apart lies in the tree. -/
theorem TakesApart.mem_places {declarator p : Place} (hd : declarator ∈ source.tree.places)
    (h : TakesApart source declarator (some p)) : p ∈ source.tree.places := by
  generalize hpattern : some p = pattern at h
  cases h with
  | target => exact mem_places_of_mem_children hd (mem_children_of_childAs hpattern.symm)
  | @between scope binding b _ _ hbelongs _ hasks hdeclared =>
    subst hpattern
    obtain ⟨⟨c, hc, hmet⟩, -, -⟩ := hasks
    have hscope : scope ∈ source.tree.places :=
      mem_places_of_mem_ancestors hd (mem_ancestors_of_declaringScope hbelongs).1
    have hb : b ∈ source.tree.places :=
      preorder_trans (mem_places_of_mem_children hscope hc) hmet.mem_preorder
    exact preorder_trans hb (hasPattern_of_mem_scopePatterns hdeclared).mem_preorder

/-- Without limits, nothing is too deep. -/
theorem not_isTooDeep_unlimited (pattern : Option Place) : ¬ IsTooDeep none pattern := nofun

end Scopes

end QueryLint.Binding
