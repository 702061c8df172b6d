import QueryLint.Proofs.Lint.Rewriting

/-!
# Checking that a tree is rewritten

Whether a tree has become another one can be computed, given the paths of the waits that are replaced
and a bound on the depth of the tree.
-/
namespace QueryLint.Lint

open QueryLint.Code QueryLint.Code.Place QueryLint.Query QueryLint.Rule.PreferFind

instance (p : Place) (kind : Kind) (named : Bool) (role : Option Role) :
    Decidable (IsLeaf p kind named role) :=
  decidable_of_iff
    (p.kind = kind ∧ p.label.isNamed = named ∧ p.label.role = role ∧ p.children.isEmpty)
    ⟨fun ⟨hk, hn, hr, hl⟩ => ⟨hk, hn, hr, List.isEmpty_iff.mp hl⟩,
      fun h => ⟨h.kind_eq, h.named_eq, h.role_eq, List.isEmpty_iff.mpr h.leaf⟩⟩

instance (p p' : Place) : Decidable (Resembles p p') := inferInstanceAs (Decidable (_ = _))

/-- Whether what is called spells a name, as a member of an object if there is one. -/
def spellsCallee (source : Source) (callee : Place) (name : String) : Option String → Bool
  | none =>
    IsLeaf callee Kind.identifier true (some .function) && source.textOf callee == name
  | some caller =>
    match callee.children with
    | [object, dot, property] =>
      callee.kind == Kind.memberExpression && callee.label.role == some .function &&
        IsLeaf object Kind.identifier true (some .object) && IsLeaf dot "." false none &&
        IsLeaf property Kind.propertyIdentifier true (some .property) &&
        source.textOf object == caller && source.textOf property == name
    | _ => false

/-- The arguments of a call that is made of a name and a list of arguments. -/
def spelledArguments? (source : Source) (call : Place) (caller : Option String) (name : String) :
    Option (List Place) :=
  match call.children with
  | [function, list] =>
    if call.kind = Kind.callExpression ∧ spellsCallee source function name caller ∧
        list.kind = Kind.arguments ∧ list.label.role = some .arguments ∧
        ∀ c ∈ list.children, c.label.isNamed = true ∧ c.kind ≠ Kind.comment ∨
          ∃ token ∈ listTokens, IsLeaf c token false none then some list.parts
    else none
  | _ => none

/-- Whether places correspond, one by one. -/
def allPairs (test : Place → Place → Bool) (ps ps' : List Place) : Bool :=
  ps.length == ps'.length && (ps.zip ps').all fun (p, p') => test p p'

/-- Whether `p` has become `p'`, where the places with the paths `gone` are replaced. -/
def hasBecome (source source' : Source) (gone : List (List Nat)) : Nat → Place → Place → Bool
  | 0, _, _ => false
  | n + 1, p, p' =>
    Resembles p p' &&
      if gone.contains p.path then
        match awaitedWait? source p with
        | some query =>
          match spelledArguments? source' p' query.caller
              (query.variant ++ (accessor? query.method).getD "") with
          | some arguments => allPairs (hasBecome source source' gone n) query.arguments arguments
          | none => false
        | none => false
      else (!p.isIdentifier || source'.textOf p' == source.textOf p) &&
        allPairs (hasBecome source source' gone n) p.children p'.children

variable {source source' : Source} {p p' : Place}

theorem spellsCallee_sound {callee : Place} {name : String} {caller : Option String}
    (h : spellsCallee source callee name caller) : SpellsCallee source callee name caller := by
  cases caller with
  | none =>
    simp only [spellsCallee, Bool.and_eq_true, decide_eq_true_eq, beq_iff_eq] at h
    exact .bare h.1 h.2
  | some caller =>
    rcases hchildren : callee.children with _ | ⟨object, _ | ⟨dot, _ | ⟨property, _ | _⟩⟩⟩ <;>
      simp only [spellsCallee, hchildren, Bool.false_eq_true, Bool.and_eq_true, decide_eq_true_eq,
        beq_iff_eq] at h
    obtain ⟨⟨⟨⟨⟨⟨hkind, hrole⟩, hobject⟩, hdot⟩, hproperty⟩, hcaller⟩, hname⟩ := h
    exact .member hkind hrole hchildren hobject hdot hproperty hcaller hname

theorem spellsCall_of_spelledArguments? {call : Place} {name : String} {caller : Option String}
    {arguments : List Place} (h : spelledArguments? source call caller name = some arguments) :
    SpellsCall source call caller name arguments := by
  unfold spelledArguments? at h
  split at h
  · next function list hchildren =>
    split_ifs at h with hspelled
    cases h
    obtain ⟨hkind, hcallee, hlist, hrole, hrest⟩ := hspelled
    refine ⟨hkind, function, list, hchildren, spellsCallee_sound hcallee, hlist, hrole, rfl, ?_⟩
    intro c hc
    rcases hrest c hc with ⟨hnamed, hcomment⟩ | htoken
    · exact .inl (List.mem_filter.mpr
        ⟨List.mem_filter.mpr ⟨hc, hnamed⟩, decide_eq_true hcomment⟩)
    · exact .inr htoken
  · cases h

theorem forall₂_of_allPairs {test : Place → Place → Bool} {ps ps' : List Place}
    (h : allPairs test ps ps') :
    List.Forall₂ (fun p p' => p ∈ ps ∧ test p p' = true) ps ps' := by
  rw [allPairs, Bool.and_eq_true, beq_iff_eq, List.all_eq_true] at h
  refine List.forall₂_iff_zip.mpr ⟨h.1, fun {p p'} hmem => ?_⟩
  exact ⟨(List.of_mem_zip hmem).1, h.2 (p, p') hmem⟩

/-- What the check accepts is rewritten. -/
theorem rewritten_of_hasBecome {n : Nat} (hp : p ∈ source.tree.places)
    (h : hasBecome source source' ((innermostWaits source).map path) n p p') :
    Rewritten source source' p p' := by
  induction n generalizing p p' with
  | zero => cases h
  | succ n ih =>
    rw [hasBecome, Bool.and_eq_true, decide_eq_true_eq] at h
    obtain ⟨hlabel, h⟩ := h
    have hmem : p ∈ innermostWaits source ↔
        ((innermostWaits source).map path).contains p.path = true := by
      rw [List.contains_iff_mem, List.mem_map]
      constructor
      · exact fun hin => ⟨p, hin, rfl⟩
      · rintro ⟨w, hw, hpath⟩
        have hwp := (mem_waits_iff.mp (List.mem_filter.mp hw).1).1
        rwa [← eq_of_path_eq hwp hp hpath]
    split_ifs at h with hgone
    · split at h
      · next query hquery =>
        split at h
        · next arguments hspelled =>
          obtain ⟨q, hwait, harguments⟩ := awaitedWait?_eq_some_iff.mp hquery
          obtain ⟨v, hv, a, ha, hmethod, hvariant, haccessor, _⟩ :=
            exists_replacement (waitedQuery?_of_awaitedWait? hquery)
          rw [hvariant, haccessor, Option.getD_some] at hspelled
          have hpairs := forall₂_of_allPairs h
          rw [harguments] at hpairs
          have hqp : q ∈ source.tree.places := ((mem_descendants_iff hp).mp
            (mem_descendants_of_waitsFor hwait.waits)).1
          refine .replaced (hmem.mpr hgone) hlabel hv ha (hmethod ▸ hwait)
            (spellsCall_of_spelledArguments? hspelled) (hpairs.imp fun c c' hcc => ?_)
          obtain ⟨_, list, hlist, _, hc⟩ := exists_of_mem_callArguments hcc.1
          exact ih (mem_places_of_mem_children (mem_places_of_mem_children hqp hlist) hc) hcc.2
        · cases h
      · cases h
    · rw [Bool.and_eq_true] at h
      refine .kept (mt hmem.mp hgone) hlabel ?_ ((forall₂_of_allPairs h.2).imp fun c c' hcc =>
        ih (mem_places_of_mem_children hp hcc.1) hcc.2)
      intro hidentifier
      simpa [hidentifier] using h.1

end QueryLint.Lint
