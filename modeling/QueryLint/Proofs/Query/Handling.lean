import QueryLint.Proofs.Code.Owners
import QueryLint.Query.CallSite

/-!
# Where a promise is handled

The checks of the model go up from a place in three ways: to what it is part of, from what is called
past the call, and along all owners to the nearest assertion. Each is said here by the owners alone.
-/
namespace QueryLint.Query

open QueryLint.Code QueryLint.Code.Place

variable {source : Source}

theorem isAwaited_iff {p : Place} :
    isAwaited p ↔ ∃ owner, p.owner? = some owner ∧ owner.kind ∈ handlingKinds := by
  simp only [isAwaited, isHandling, Option.any_eq_true, List.contains_eq_mem, decide_eq_true_eq]

theorem takesThen_iff {p : Place} :
    takesThen source p ↔ source.propertyName? p = some "then" := by
  rw [takesThen, beq_iff_eq]

/-- What is called is continued if the call is. -/
theorem isContinued_callee_iff {call callee : Place} (h : call.callee? = some callee) :
    isContinued source callee ↔
      ∃ owner, call.owner? = some owner ∧ source.propertyName? owner = some "then" := by
  simp only [isContinued, owner?_of_callee? h, Option.any_some, isCall_of_callee? h, if_true,
    Option.any_eq_true, takesThen_iff]

/-- Whether a place calls `expect` and a member is taken of what the call gives. -/
def isAssertion (source : Source) (p : Place) : Bool :=
  p.callee?.bind source.nameOf? == some expectName && p.owner?.any isMember

theorem outcomeExpectedIn_cons (p owner : Place) (above : List Place)
    (h : p.owner? = some owner) :
    outcomeExpectedIn source p (owner :: above) =
      if isAssertion source p then (source.propertyName? owner).any outcomeNames.contains
      else outcomeExpectedIn source owner above := by
  have hcall : p.callee?.bind source.nameOf? = some expectName → p.isCall := fun hname => by
    obtain ⟨callee, hc, _⟩ := Option.bind_eq_some_iff.mp hname
    exact isCall_of_callee? hc
  have hcond : (p.isCall && p.callee?.bind source.nameOf? == some expectName && owner.isMember) =
      isAssertion source p := by
    rw [isAssertion, h, Option.any_some, Bool.eq_iff_iff]
    simp only [Bool.and_eq_true, beq_iff_eq]
    exact ⟨fun ⟨⟨_, hn⟩, hm⟩ => ⟨hn, hm⟩, fun ⟨hn, hm⟩ => ⟨⟨hcall hn, hn⟩, hm⟩⟩
  rw [outcomeExpectedIn, hcond]
  cases source.propertyName? owner <;> rfl

/-- The nearest assertion at or above a place decides, by the member that is taken of it. -/
theorem isOutcomeExpected_iff (p : Place) :
    isOutcomeExpected source p ↔
      ∃ assertion member name, (p :: p.owners).find? (isAssertion source) = some assertion ∧
        assertion.owner? = some member ∧ source.propertyName? member = some name ∧
        name ∈ outcomeNames := by
  rw [isOutcomeExpected]
  generalize habove : p.owners = above
  induction above generalizing p with
  | nil =>
    have hnot : isAssertion source p = false := by
      simp only [isAssertion, owner?, habove, List.head?_nil, Option.any_none, Bool.and_false]
    simp [outcomeExpectedIn, hnot]
  | cons owner above ih =>
    have howner : p.owner? = some owner := by rw [owner?, habove, List.head?_cons]
    rw [outcomeExpectedIn_cons p owner above howner]
    by_cases hp : isAssertion source p
    · rw [if_pos hp, List.find?_cons_of_pos hp]
      simp only [Option.any_eq_true, List.contains_iff_mem]
      constructor
      · intro h
        obtain ⟨name, hname, hmem⟩ := h
        exact ⟨p, owner, name, rfl, howner, hname, hmem⟩
      · intro h
        obtain ⟨_, _, name, hfound, hm, hname, hmem⟩ := h
        cases hfound
        cases howner.symm.trans hm
        exact ⟨name, hname, hmem⟩
    · have htail : owner.owners = above := by
        have hcons := owners_eq_cons howner
        rw [habove] at hcons
        exact (List.cons.inj hcons).2.symm
      rw [if_neg hp, List.find?_cons_of_neg hp]
      exact ih owner htail

theorem calledName?_eq_some_iff {callee identifier : Place} :
    calledName? callee = some identifier ↔
      (callee.isIdentifier ∧ identifier = callee) ∨ callee.property? = some identifier := by
  unfold calledName?
  split_ifs with hi
  · have hnone : callee.property? = none := by
      have hkinds : ∀ k ∈ identifierKinds, (k == Kind.memberExpression) = false := by decide
      rw [property?, isMember, hkinds callee.kind (List.contains_iff_mem.mp hi)]
      rfl
    simp [hi, hnone, eq_comm]
  · simp [hi]

/-- A name is called by one call at most. -/
theorem call_eq_of_calledName? {call₁ call₂ callee₁ callee₂ identifier : Place}
    (h₁ : call₁.callee? = some callee₁) (h₂ : call₂.callee? = some callee₂)
    (hi₁ : calledName? callee₁ = some identifier) (hi₂ : calledName? callee₂ = some identifier) :
    call₁ = call₂ := by
  -- the owner of the name is the call itself or else a member expression, which is no call
  have hkind : ∀ p : Place, p.isCall → ¬ p.isMember := by
    intro p hc hm
    exact absurd ((beq_iff_eq.mp hc).symm.trans (beq_iff_eq.mp hm)) (by decide)
  have ho₁ := owner?_of_callee? h₁
  have ho₂ := owner?_of_callee? h₂
  rcases calledName?_eq_some_iff.mp hi₁ with ⟨_, rfl⟩ | hp₁ <;>
    rcases calledName?_eq_some_iff.mp hi₂ with ⟨_, rfl⟩ | hp₂
  · exact Option.some.inj (ho₁.symm.trans ho₂)
  · obtain ⟨hm, ho⟩ := owner?_of_property? hp₂
    cases ho₁.symm.trans ho
    exact (hkind _ (isCall_of_callee? h₁) hm).elim
  · obtain ⟨hm, ho⟩ := owner?_of_property? hp₁
    cases ho₂.symm.trans ho
    exact (hkind _ (isCall_of_callee? h₂) hm).elim
  · have ho := (owner?_of_property? hp₁).2.symm.trans (owner?_of_property? hp₂).2
    cases ho
    exact Option.some.inj (ho₁.symm.trans ho₂)

end QueryLint.Query
