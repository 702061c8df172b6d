import QueryLint.Proofs.Code.WellFormed
import QueryLint.Proofs.Rule.AwaitQuery

/-!
# Down and up again

The rules go down from an expression to its parts and up from a part to what it is part of, and they take
it that the one undoes the other: what is called is asked for its owner in order to come back to the call.
This holds however deep the parentheses and wherever the comments. So a place is called by one call at
most, nothing is both called and given as an argument, and no two call sites share a name.
-/
namespace QueryLint.Query

open QueryLint.Code QueryLint.Code.Place QueryLint.Rule

theorem call_eq_of_callee? {c d callee : Place} (hc : c.callee? = some callee)
    (hd : d.callee? = some callee) : c = d :=
  Option.some.inj ((owner?_of_callee? hc).symm.trans (owner?_of_callee? hd))

/-- What is called is no argument, in parentheses or not. -/
theorem notMem_callArguments_of_callee? {c callee : Place} (h : c.callee? = some callee) (d : Place) :
    callee ∉ d.callArguments ∧ ∀ a ∈ d.callArguments, a.unwrap ≠ some callee := by
  constructor
  · intro hmem
    exact holder?_ne_of_callee? h hmem rfl
  · intro a ha hunwrap
    exact holder?_ne_of_callee? h ha (holder?_of_unwrap hunwrap)

theorem call_eq_of_callSite? {source : Source} {c d : Place} {site other : CallSite}
    (hc : callSite? source c = some site) (hd : callSite? source d = some other)
    (h : site.identifier = other.identifier) : c = d := by
  obtain ⟨_, hcallee, hname, _⟩ := AwaitQuery.callSite?_eq_some_iff.mp hc
  obtain ⟨_, hcallee', hname', _⟩ := AwaitQuery.callSite?_eq_some_iff.mp hd
  rw [h] at hname
  exact call_eq_of_calledName? hcallee hcallee' (calledName?_eq_some_iff.mpr hname)
    (calledName?_eq_some_iff.mpr hname')

/-- Going up from what is reached by going down leads back to where it was reached from. In particular
the call of a name, or of anything, is told by what is called. -/
theorem navigation_inverse :
    (∀ p q : Place, p.unwrap = some q → q.owner? = p.owner?) ∧
    (∀ c callee : Place, c.callee? = some callee → callee.owner? = some c) ∧
    (∀ c : Place, ∀ a ∈ c.callArguments, a.owner? = some c ∧
      ∀ q, a.unwrap = some q → q.owner? = some c) ∧
    (∀ m object : Place, m.object? = some object → object.owner? = some m) ∧
    (∀ f body : Place, f.body? = some body → body.owner? = some f) ∧
    (∀ w operand : Place, w.operand? = some operand → operand.owner? = some w) ∧
    (∀ c d callee : Place, c.callee? = some callee → d.callee? = some callee → c = d) ∧
    (∀ c callee : Place, c.callee? = some callee → ∀ d : Place, callee ∉ d.callArguments ∧
      ∀ a ∈ d.callArguments, a.unwrap ≠ some callee) ∧
    ∀ (source : Source) (c d : Place) (site other : CallSite), callSite? source c = some site →
      callSite? source d = some other → site.identifier = other.identifier → c = d := by
  refine ⟨fun _ _ => owner?_of_unwrap, fun _ _ => owner?_of_callee?, fun c a ha => ?_,
    fun _ _ => owner?_of_object?, fun _ _ => owner?_of_body?, fun _ _ => owner?_of_operand?,
    fun _ _ _ => call_eq_of_callee?, fun _ _ h => notMem_callArguments_of_callee? h,
    fun _ _ _ _ _ => call_eq_of_callSite?⟩
  have howner := owner?_of_mem_callArguments ha
  exact ⟨howner, fun q hq => (owner?_of_unwrap hq).trans howner⟩

/-- A call with parentheses and comments around its name and its argument. -/
def wrappedCall : Source where
  path := "a.test.js"
  text := "((/**/findByText))(/**/(x));"
  language := .javascript
  tree :=
    .named "program" 0 28 none [
      .named "expression_statement" 0 28 none [
        .named "call_expression" 0 27 none [
          .named "parenthesized_expression" 0 18 (some .function) [
            .token "(" 0 1,
            .named "parenthesized_expression" 1 17 none [
              .token "(" 1 2, .named "comment" 2 6 none [], .named "identifier" 6 16 none [],
              .token ")" 16 17],
            .token ")" 17 18],
          .named "arguments" 18 27 (some .arguments) [
            .token "(" 18 19, .named "comment" 19 23 none [],
            .named "parenthesized_expression" 23 26 none [
              .token "(" 23 24, .named "identifier" 24 25 none [], .token ")" 25 26],
            .token ")" 26 27]],
        .token ";" 27 28]]

/-- From the name and from the argument of `wrappedCall` there is the same way back, and the call site of
the name is the one of this call. -/
theorem navigation_inverse_wrappedCall : ∃ call name argument : Place,
    call ∈ wrappedCall.tree.places ∧ wrappedCall.tree.WellFormed ∧ call.callee? = some name ∧
      name.owner? = some call ∧ argument ∈ call.callArguments ∧ argument.owner? = some call ∧
      argument.unwrap ≠ some name ∧
      callSite? wrappedCall call = some ⟨name, name, call⟩ ∧
      ∀ other site, callSite? wrappedCall other = some site → site.identifier = name →
        call = other := by
  obtain ⟨_, hcallee, harguments, _, _, _, _, happart, hsites⟩ := navigation_inverse
  have hname : (wrappedCall.tree.placeAt 2).callee? = some (wrappedCall.tree.placeAt 8) := rfl
  have hargument : wrappedCall.tree.placeAt 14 ∈ (wrappedCall.tree.placeAt 2).callArguments :=
    List.mem_cons_self
  have hspelled : wrappedCall.nameOf? (wrappedCall.tree.placeAt 8) = some "findByText" := by decide
  have hsite : callSite? wrappedCall (wrappedCall.tree.placeAt 2) = some
      ⟨wrappedCall.tree.placeAt 8, wrappedCall.tree.placeAt 8, wrappedCall.tree.placeAt 2⟩ :=
    AwaitQuery.callSite?_eq_some_iff.mpr
      ⟨rfl, hname, .inl ⟨by decide, rfl⟩, "findByText", hspelled, by decide⟩
  exact ⟨_, _, _, wrappedCall.tree.placeAt_mem 2, by decide, hname, hcallee _ _ hname, hargument,
    (harguments _ _ hargument).1, (happart _ _ hname _).2 _ hargument, hsite,
    fun other site hother h => hsites _ _ _ _ _ hsite hother h.symm⟩

end QueryLint.Query
