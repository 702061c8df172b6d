import QueryLint.Proofs.Binding.Trimming
import QueryLint.Proofs.Rule.AwaitQuery
import QueryLint.Proofs.Rule.PreferFind

/-!
# What rules report of a trimmed tree

A query that nobody handles is one in the trimmed tree as well, and the other way round; and so is a
wait for a query. What is reported is what the reported places have become, in the same order.
-/
namespace QueryLint.Code.Trimming

open QueryLint.Binding QueryLint.Code.Place QueryLint.Query QueryLint.Rule

variable {source source' : Source} {t : Trimming source source'} {p : Place}

section Handling

variable (h : t.Keeps p)

include h

theorem any_owner? {f f' : Place → Bool} (hf : ∀ a, t.Keeps a → f' (t.place a) = f a) :
    (t.place p).owner?.any f' = p.owner?.any f := by
  rw [h.owner?]
  cases howner : p.owner? with
  | none => rfl
  | some owner => exact hf owner (keeps_of_owner? h.mem howner)

theorem Keeps.isAwaited : Query.isAwaited (t.place p) = Query.isAwaited p :=
  any_owner? h fun a ha => by rw [isHandling, isHandling, ha.kind]

theorem Keeps.takesThen : Query.takesThen source' (t.place p) = Query.takesThen source p := by
  rw [Query.takesThen, Query.takesThen, h.propertyName?]

theorem Keeps.isContinued : Query.isContinued source' (t.place p) = Query.isContinued source p := by
  rw [Query.isContinued, Query.isContinued]
  refine any_owner? h fun a ha => ?_
  rw [ha.isCall, any_owner? ha fun b hb => hb.takesThen, ha.takesThen]

theorem outcomeExpectedIn_place {owners : List Place} (howners : ∀ a ∈ owners, t.Keeps a) :
    outcomeExpectedIn source' (t.place p) (owners.map t.place) =
      outcomeExpectedIn source p owners := by
  induction owners generalizing p with
  | nil => rfl
  | cons owner above ih =>
    have howner := howners owner List.mem_cons_self
    rw [List.map_cons, outcomeExpectedIn, outcomeExpectedIn, h.isCall, h.calledName, howner.isMember,
      howner.propertyName?, ih howner fun a ha => howners a (List.mem_cons_of_mem _ ha)]

theorem Keeps.isOutcomeExpected :
    Query.isOutcomeExpected source' (t.place p) = Query.isOutcomeExpected source p := by
  rw [Query.isOutcomeExpected, Query.isOutcomeExpected, h.owners]
  exact outcomeExpectedIn_place h fun a ha => keeps_of_mem_owners h.mem ha

end Handling

section AwaitQuery

/-- A call site in the trimmed tree. -/
def site (t : Trimming source source') (s : CallSite) : CallSite :=
  ⟨t.place s.identifier, t.place s.callee, t.place s.call⟩

theorem calledName?_place (h : t.Keeps p) :
    calledName? (t.place p) = (calledName? p).map t.place := by
  rw [calledName?, calledName?, isIdentifier, isIdentifier, h.kind, h.property?]
  split_ifs <;> rfl

theorem keeps_of_calledName? {identifier : Place} (h : t.Keeps p)
    (hi : calledName? p = some identifier) : t.Keeps identifier := by
  rcases calledName?_eq_some_iff.mp hi with ⟨_, rfl⟩ | hproperty
  · exact h
  · exact keeps_of_property? h hproperty

theorem callSite?_place (h : t.Keeps p) :
    callSite? source' (t.place p) = (callSite? source p).map t.site := by
  simp only [callSite?, Option.bind_eq_bind, h.callee?]
  cases hc : p.callee? with
  | none => rfl
  | some callee =>
    have hcallee := keeps_of_callee? h hc
    simp only [Option.map_some, Option.bind_some, calledName?_place hcallee]
    cases hi : calledName? callee with
    | none => rfl
    | some identifier =>
      simp only [Option.map_some, Option.bind_some, (keeps_of_calledName? hcallee hi).nameOf?]
      cases source.nameOf? identifier with
      | none => rfl
      | some name =>
        simp only [Option.bind_some]
        split_ifs <;> rfl

theorem keeps_of_callSite? {s : CallSite} (hp : p ∈ source.tree.places)
    (hs : callSite? source p = some s) :
    t.Keeps s.call ∧ t.Keeps s.callee ∧ t.Keeps s.identifier := by
  obtain ⟨rfl, hc, hi, _⟩ := AwaitQuery.callSite?_eq_some_iff.mp hs
  have h : t.Keeps s.call := keeps_of_isSome_callee? hp (by rw [hc]; rfl)
  have hcallee := keeps_of_callee? h hc
  exact ⟨h, hcallee, keeps_of_calledName? hcallee (calledName?_eq_some_iff.mpr hi)⟩

theorem isSuspect_site {s : CallSite} (hcall : t.Keeps s.call) (hcallee : t.Keeps s.callee) :
    AwaitQuery.isSuspect source' (t.site s) = AwaitQuery.isSuspect source s := by
  rw [AwaitQuery.isSuspect, AwaitQuery.isSuspect, CallSite.isHandledInPlace,
    CallSite.isHandledInPlace, site, hcall.isAwaited, hcallee.isContinued, hcall.isOutcomeExpected]

/-- Whether a variable is left unhandled is a matter of the places where it is used. -/
theorem isLeftUnhandled_eq (kept : List Variable) :
    AwaitQuery.isLeftUnhandled source kept =
      match kept.map Variable.places with
      | [] => true
      | uses :: _ => uses.isEmpty ||
          uses.any fun q => !(Query.isAwaited q || Query.isContinued source q) := by
  cases kept with
  | nil => rfl
  | cons v vs =>
    simp only [List.map_cons, Variable.places, List.isEmpty_map, List.any_map]
    rfl

theorem Keeps.isLeftUnhandled (h : t.Keeps p) :
    AwaitQuery.isLeftUnhandled source' (declaredVariables source' (t.place p)) =
      AwaitQuery.isLeftUnhandled source (declaredVariables source p) := by
  rw [isLeftUnhandled_eq, isLeftUnhandled_eq, h.map_places_declaredVariables]
  cases hvars : declaredVariables source p with
  | nil => rfl
  | cons v vs =>
    have hv : v ∈ declaredVariables source p := hvars ▸ List.mem_cons_self
    simp only [List.map_cons, List.isEmpty_map, List.any_map]
    congr 1
    rw [Bool.eq_iff_iff, List.any_eq_true, List.any_eq_true]
    refine exists_congr fun q => and_congr_right fun hq => ?_
    have hkeeps := keeps_of_mem_variable_places h hv hq
    rw [Function.comp_apply, hkeeps.isAwaited, hkeeps.isContinued]

theorem isUnhandled_site {s : CallSite} (hcall : t.Keeps s.call) :
    AwaitQuery.isUnhandled source' (t.site s) = AwaitQuery.isUnhandled source s := by
  have hdeclarator : (t.site s).declarator? = s.declarator?.map t.place := by
    rw [CallSite.declarator?, CallSite.declarator?, site, hcall.owner?]
    cases howner : s.call.owner? with
    | none => rfl
    | some owner =>
      have hkeeps := (keeps_of_owner? hcall.mem howner : t.Keeps owner)
      simp only [Option.map_some, Option.filter_some, hkeeps.isDeclarator]
      split_ifs <;> rfl
  rw [AwaitQuery.isUnhandled, AwaitQuery.isUnhandled, hdeclarator]
  cases hd : s.declarator? with
  | none => rfl
  | some declarator =>
    have howner : s.call.owner? = some declarator := Option.eq_some_of_filter_eq_some hd
    exact (keeps_of_owner? hcall.mem howner : t.Keeps declarator).isLeftUnhandled

theorem Keeps.suspectsAt (h : t.Keeps p) :
    AwaitQuery.suspectsAt source' (t.place p) = (AwaitQuery.suspectsAt source p).map t.site := by
  rw [AwaitQuery.suspectsAt, AwaitQuery.suspectsAt, callSite?_place h]
  cases hs : callSite? source p with
  | none => rfl
  | some s =>
    obtain ⟨hcall, hcallee, _⟩ := keeps_of_callSite? (t := t) h.mem hs
    simp only [Option.map_some, Option.toList_some, List.filter_cons, List.filter_nil,
      isSuspect_site hcall hcallee]
    split_ifs <;> rfl

end AwaitQuery

section PreferFind

/-- A query that is waited for, with its arguments in the trimmed tree. -/
def query (t : Trimming source source') (q : WaitedQuery) : WaitedQuery :=
  { q with arguments := q.arguments.map t.place }

theorem syncQuery?_place (h : t.Keeps p) :
    syncQuery? source' (t.place p) = (syncQuery? source p).map t.query := by
  simp only [syncQuery?, Option.bind_eq_bind, h.callee?, h.callArguments]
  cases hc : p.callee? with
  | none => rfl
  | some callee =>
    have hcallee := keeps_of_callee? h hc
    simp only [Option.map_some, Option.bind_some, hcallee.isMember, hcallee.object?,
      hcallee.propertyName?, hcallee.nameOf?]
    split_ifs
    · cases ho : callee.object? with
      | none => rfl
      | some object =>
        simp only [Option.map_some, Option.bind_some, (keeps_of_object? hcallee ho).nameOf?]
        cases source.nameOf? object with
        | none => rfl
        | some caller =>
          cases source.propertyName? callee with
          | none => rfl
          | some method =>
            simp only [Option.bind_some, Option.pure_def]
            split_ifs <;> rfl
    · cases source.nameOf? callee with
      | none => rfl
      | some method =>
        simp only [Option.bind_some, Option.pure_def]
        split_ifs <;> rfl

theorem waitedQuery?_place (h : t.Keeps p) :
    waitedQuery? source' (t.place p) = (waitedQuery? source p).map t.query := by
  simp only [waitedQuery?, Option.bind_eq_bind, h.calledName, h.callArguments]
  cases p.callee?.bind source.nameOf? with
  | none => rfl
  | some name =>
    simp only [Option.bind_some]
    split_ifs
    · cases harguments : p.callArguments with
      | nil => rfl
      | cons argument rest =>
        cases rest with
        | cons second others => rfl
        | nil =>
          have hargument : t.Stays argument :=
            stays_of_mem_callArguments h (harguments ▸ List.mem_cons_self)
          simp only [List.map_cons, List.map_nil, unwrap_place hargument]
          cases hcallback : argument.unwrap with
          | none => rfl
          | some callback =>
            have hkeeps := keeps_of_unwrap hargument hcallback
            simp only [Option.map_some, Option.bind_some, hkeeps.isArrow,
              hkeeps.isEmpty_parameters, hkeeps.body?]
            split_ifs
            · have hbody : ∀ c, callback.body? = some c → t.Stays c := fun c hc =>
                stays_of_body? hkeeps hc
              rw [bind_unwrap hbody]
              cases hq : callback.body?.bind unwrap with
              | none => rfl
              | some q =>
                have hcall := keeps_of_bind_unwrap hbody hq
                simp only [Option.map_some, Option.bind_some, hcall.isCall, syncQuery?_place hcall]
                split_ifs <;> rfl
            · rfl
    · rfl

theorem awaitedWait?_place (h : t.Keeps p) :
    PreferFind.awaitedWait? source' (t.place p) =
      (PreferFind.awaitedWait? source p).map t.query := by
  rw [PreferFind.awaitedWait?, PreferFind.awaitedWait?, any_owner? h fun a ha => ha.isAwait,
    waitedQuery?_place h]
  split_ifs <;> rfl

end PreferFind

section Reports

/-- A report at what its place has become. -/
def moved (t : Trimming source source') (r : Report) : Report := { r with place := t.place r.place }

/-- What is gone through in the trimmed tree is gone through among all places, if there is nothing to be
found at those that are not kept. -/
theorem flatMap_places {β : Type*} {f f' : Place → List β}
    (hkept : ∀ q, t.Keeps q → f' (t.place q) = f q)
    (hother : ∀ q ∈ source.tree.places, t.fate q ≠ .kept → f q = []) :
    source'.tree.places.flatMap f' = source.tree.places.flatMap f := by
  have hkeeps : ∀ q ∈ source.tree.places.filter (t.fate · = .kept), f' (t.place q) = f q := by
    intro q hq
    obtain ⟨hmem, hfate⟩ := List.mem_filter.mp hq
    exact hkept q ⟨hmem, of_decide_eq_true hfate⟩
  have hnothing : ∀ q ∈ source.tree.places, decide (t.fate q = .kept) = false → f q = [] :=
    fun q hq hfate => hother q hq (of_decide_eq_false hfate)
  rw [t.places_eq, List.flatMap_map, List.flatMap_congr hkeeps, flatMap_eq_flatMap_filter hnothing]

theorem unhandledSites_trim :
    AwaitQuery.unhandledSites source' =
      (AwaitQuery.unhandledSites source).map t.site := by
  have hsuspects : source'.tree.places.flatMap (AwaitQuery.suspectsAt source') =
      (source.tree.places.flatMap (AwaitQuery.suspectsAt source)).map t.site := by
    rw [List.map_flatMap]
    refine flatMap_places (t := t) (fun q hq => hq.suspectsAt) fun q hq hfate => ?_
    rw [AwaitQuery.suspectsAt, callSite?, callee?_eq_none hq hfate]
    rfl
  have hunhandled : ∀ s ∈ source.tree.places.flatMap (AwaitQuery.suspectsAt source),
      (AwaitQuery.isUnhandled source' ∘ t.site) s = AwaitQuery.isUnhandled source s := by
    intro s hs
    obtain ⟨q, hq, hs⟩ := List.mem_flatMap.mp hs
    exact isUnhandled_site (keeps_of_callSite? hq (AwaitQuery.mem_suspectsAt_iff.mp hs).1).1
  rw [AwaitQuery.unhandledSites, AwaitQuery.unhandledSites, hsuspects, List.filter_map, List.filter_congr hunhandled]

theorem keeps_of_mem_unhandledSites {s : CallSite} (hs : s ∈ AwaitQuery.unhandledSites source) :
    t.Keeps s.identifier := by
  have hcall := (AwaitQuery.mem_unhandledSites_iff.mp hs).1
  exact (keeps_of_callSite? hcall (AwaitQuery.callSite?_of_mem_unhandledSites hs)).2.2

theorem siteReport_site {s : CallSite} (h : t.Keeps s.identifier) :
    AwaitQuery.siteReport source' (t.site s) = t.moved (AwaitQuery.siteReport source s) := by
  have hname : (t.site s).name source' = s.name source := by
    rw [CallSite.name, CallSite.name, site, h.nameOf?]
  simp only [AwaitQuery.siteReport, moved, hname]
  simp only [site]

theorem keeps_of_reportAt? (hp : p ∈ source.tree.places) {r : Report}
    (hr : PreferFind.reportAt? source p = some r) : t.Keeps p := by
  refine keeps_of_isSome_callee? hp (Option.isSome_iff_ne_none.mpr fun hnone => ?_)
  rw [PreferFind.reportAt?, PreferFind.awaitedWait?, waitedQuery?, hnone] at hr
  simp at hr

theorem reportAt?_place (h : t.Keeps p) :
    PreferFind.reportAt? source' (t.place p) =
      (PreferFind.awaitedWait? source p).map fun q => t.moved
        (PreferFind.waitReport source p q.variant ((accessor? q.method).getD "")
          (((t.query q).replacement source').getD "")) := by
  rw [PreferFind.reportAt?, awaitedWait?_place h, Option.map_map]
  refine Option.map_congr fun q _ => ?_
  simp only [Function.comp_apply, PreferFind.waitReport, moved, h.textOf, h.start, h.stop, query,
    WaitedQuery.variant]

end Reports

end QueryLint.Code.Trimming
