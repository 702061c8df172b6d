import QueryLint.Proofs.Binding.Limits
import QueryLint.Proofs.Code.WellFormed
import QueryLint.Proofs.Lint.Single
import QueryLint.Proofs.Query.Handling
import QueryLint.Proofs.Text.Template

/-!
# Which queries are reported

The rule notes suspect calls on its way through the tree and decides on them when it is told to
finish. What it has decided on and what it still keeps are together the suspect calls seen so far,
in order; each listener keeps this up, so nothing is lost and nothing is reported twice.

It cannot decide on a call that is kept in variables it does not find within the limits of the run. Then
it gives up, and so a run comes to its end exactly if each suspect call can be decided on.
-/
namespace QueryLint.Rule.AwaitQuery

open QueryLint.Binding QueryLint.Code QueryLint.Code.Place QueryLint.Code.ListenerTable
open QueryLint.Data QueryLint.Finding QueryLint.Lint QueryLint.Query QueryLint.Text

/-- Whether what a place is part of waits for it or hands it on. -/
def IsPassedOn (p : Place) : Prop := ∃ owner, p.owner? = some owner ∧ owner.kind ∈ handlingKinds

/-- Whether `then` is taken of a place, or of the call that the place is part of. -/
def IsChained (source : Source) (p : Place) : Prop :=
  ∃ owner, p.owner? = some owner ∧
    if owner.isCall then
      ∃ above, owner.owner? = some above ∧ source.propertyName? above = some "then"
    else source.propertyName? owner = some "then"

/-- Whether a promise kept in a variable is lost: it is never used, or some use does not handle
it. -/
def IsLost (source : Source) (v : Variable) : Prop :=
  v.uses = [] ∨ ∃ use ∈ v.uses, ¬ IsPassedOn use.place ∧ ¬ IsChained source use.place

/-- Whether a place calls a query that answers with a promise, and no one handles the promise. -/
structure IsUnhandledQuery (source : Source) (call : Place) : Prop where
  query : ∃ callee identifier name, call.callee? = some callee ∧
    (callee.isIdentifier ∧ identifier = callee ∨ callee.property? = some identifier) ∧
    source.nameOf? identifier = some name ∧ isAsync name
  notHandled : ∀ owner, call.owner? = some owner →
    owner.kind ∉ handlingKinds ∧ source.propertyName? owner ≠ some "then"
  notAsserted : ∀ assertion member name,
    (call :: call.owners).find? (isAssertion source) = some assertion →
    assertion.owner? = some member → source.propertyName? member = some name →
    name ∉ outcomeNames
  notKept : ∀ owner v, call.owner? = some owner → owner.isDeclarator →
    (declaredVariables source owner).head? = some v → IsLost source v

variable {source : Source}

theorem isUseHandled_iff {use : Use} :
    isUseHandled source use ↔ IsPassedOn use.place ∨ IsChained source use.place := by
  rw [isUseHandled, Bool.or_eq_true, isAwaited_iff, IsPassedOn, IsChained, isContinued,
    Option.any_eq_true]
  refine or_congr_right (exists_congr fun owner => and_congr_right fun _ => ?_)
  by_cases hc : owner.isCall
  · simp only [if_pos hc, Option.any_eq_true, takesThen_iff]
  · simp only [if_neg hc, takesThen_iff]

theorem isLeftUnhandled_iff {kept : List Variable} :
    isLeftUnhandled source kept ↔ ∀ v, kept.head? = some v → IsLost source v := by
  unfold isLeftUnhandled
  cases kept with
  | nil => simp
  | cons v vs =>
    have huse : ∀ use, isUseHandled source use = false ↔
        ¬ IsPassedOn use.place ∧ ¬ IsChained source use.place := fun use => by
      rw [← not_or, ← isUseHandled_iff, Bool.not_eq_true]
    simp [IsLost, huse]

/-- Whether a call is unhandled, with all variables that it is kept in. -/
def isUnhandled (source : Source) (site : CallSite) : Bool :=
  match site.declarator? with
  | some declarator => isLeftUnhandled source (declaredVariables source declarator)
  | none => true

theorem isUnhandled_iff {site : CallSite} :
    isUnhandled source site ↔
      ∀ owner v, site.call.owner? = some owner → owner.isDeclarator →
        (declaredVariables source owner).head? = some v → IsLost source v := by
  unfold isUnhandled CallSite.declarator?
  cases site.call.owner? with
  | none => simp
  | some owner =>
    by_cases hd : owner.isDeclarator
    · rw [Option.filter_some_pos hd]
      constructor
      · rintro h _ v ⟨⟩ _ hv
        exact isLeftUnhandled_iff.mp h v hv
      · intro h
        exact isLeftUnhandled_iff.mpr fun v hv => h owner v rfl hd hv
    · rw [Option.filter_some_neg (Bool.eq_false_iff.mpr hd)]
      refine iff_of_true rfl ?_
      rintro _ v ⟨⟩ hd'
      exact absurd hd' hd

theorem callSite?_eq_some_iff {call : Place} {site : CallSite} :
    callSite? source call = some site ↔
      site.call = call ∧ call.callee? = some site.callee ∧
        (site.callee.isIdentifier ∧ site.identifier = site.callee ∨
          site.callee.property? = some site.identifier) ∧
        ∃ name, source.nameOf? site.identifier = some name ∧ isAsync name := by
  obtain ⟨identifier, callee, called⟩ := site
  simp only [callSite?, Option.bind_eq_bind, Option.bind_eq_some_iff, ← calledName?_eq_some_iff]
  constructor
  · intro h
    obtain ⟨c, hc, i, hi, name, hn, hsite⟩ := h
    split_ifs at hsite with ha
    cases hsite
    exact ⟨rfl, hc, hi, name, hn, ha⟩
  · intro h
    obtain ⟨rfl, hc, hi, name, hn, ha⟩ := h
    exact ⟨callee, hc, identifier, hi, name, hn, if_pos ha⟩

theorem isSuspect_iff {site : CallSite} (h : callSite? source site.call = some site) :
    isSuspect source site ↔
      (∀ owner, site.call.owner? = some owner →
        owner.kind ∉ handlingKinds ∧ source.propertyName? owner ≠ some "then") ∧
      ∀ assertion member name,
        (site.call :: site.call.owners).find? (isAssertion source) = some assertion →
        assertion.owner? = some member → source.propertyName? member = some name →
        name ∉ outcomeNames := by
  have hcallee := (callSite?_eq_some_iff.mp h).2.1
  rw [isSuspect, Bool.not_eq_true', Bool.or_eq_false_iff, CallSite.isHandledInPlace,
    Bool.or_eq_false_iff, ← Bool.not_eq_true, ← Bool.not_eq_true, ← Bool.not_eq_true,
    isAwaited_iff, isContinued_callee_iff hcallee, isOutcomeExpected_iff]
  constructor
  · intro hyp
    obtain ⟨⟨hawait, hthen⟩, hexpect⟩ := hyp
    refine ⟨fun owner ho => ⟨fun hk => hawait ⟨owner, ho, hk⟩, fun hp => hthen ⟨owner, ho, hp⟩⟩, ?_⟩
    intro assertion member name ha hm hn hout
    exact hexpect ⟨assertion, member, name, ha, hm, hn, hout⟩
  · intro hyp
    obtain ⟨howner, hexpect⟩ := hyp
    refine ⟨⟨?_, ?_⟩, ?_⟩
    · intro hyp
      obtain ⟨owner, ho, hk⟩ := hyp
      exact (howner owner ho).1 hk
    · intro hyp
      obtain ⟨owner, ho, hp⟩ := hyp
      exact (howner owner ho).2 hp
    · intro hyp
      obtain ⟨assertion, member, name, ha, hm, hn, hout⟩ := hyp
      exact hexpect assertion member name ha hm hn hout

/-- The suspect calls at a place: one at most. -/
def suspectsAt (source : Source) (p : Place) : List CallSite :=
  (callSite? source p).toList.filter (isSuspect source)

theorem mem_suspectsAt_iff {p : Place} {site : CallSite} :
    site ∈ suspectsAt source p ↔ callSite? source p = some site ∧ isSuspect source site := by
  rw [suspectsAt, List.mem_filter, Option.mem_toList]

theorem suspectsAt_eq_nil {p : Place} (h : ¬ p.isCall) : suspectsAt source p = [] := by
  refine List.eq_nil_iff_forall_not_mem.mpr fun site hs => h ?_
  exact isCall_of_callee? (callSite?_eq_some_iff.mp (mem_suspectsAt_iff.mp hs).1).2.1

/-- A suspect call that is left unhandled is a query as described, and the other way round. -/
theorem isUnhandledQuery_iff {call : Place} :
    IsUnhandledQuery source call ↔
      ∃ site ∈ suspectsAt source call, isUnhandled source site := by
  constructor
  · intro h
    obtain ⟨⟨callee, identifier, name, hc, hi, hn, ha⟩, hhandled, hasserted, hkept⟩ := h
    have hsite : callSite? source call = some ⟨identifier, callee, call⟩ :=
      callSite?_eq_some_iff.mpr ⟨rfl, hc, hi, name, hn, ha⟩
    refine ⟨_, mem_suspectsAt_iff.mpr ⟨hsite, ?_⟩, isUnhandled_iff.mpr hkept⟩
    exact (isSuspect_iff hsite).mpr ⟨hhandled, hasserted⟩
  · intro h
    obtain ⟨site, hs, hu⟩ := h
    obtain ⟨hsite, hsuspect⟩ := mem_suspectsAt_iff.mp hs
    obtain ⟨rfl, hc, hi, name, hn, ha⟩ := callSite?_eq_some_iff.mp hsite
    obtain ⟨hhandled, hasserted⟩ := (isSuspect_iff hsite).mp hsuspect
    exact ⟨⟨_, _, name, hc, hi, hn, ha⟩, hhandled, hasserted, isUnhandled_iff.mp hu⟩

/-- What is reported of a call, at the name of the query. -/
def siteReport (source : Source) (site : CallSite) : Report where
  ruleId := info.id
  place := site.identifier
  messageId := messageId
  message := "`" ++ site.name source ++ "` must have `await` operator"
  data := [("name", .text (site.name source))]
  suggestions := []

theorem messageOf_name (name : String) :
    messageOf info messageId [("name", .text name)] =
      .ok ("`" ++ name ++ "` must have `await` operator") := by
  have htemplate : info.messages.lookup messageId =
      some "`\x7b\x7b name \x7d\x7d` must have `await` operator" := by decide
  have hchars : "`\x7b\x7b name \x7d\x7d` must have `await` operator".toList =
      ['`'] ++ '\x7b' :: '\x7b' :: ([' '] ++ ("name".toList ++ ([' '] ++
        '\x7d' :: '\x7d' :: "` must have `await` operator".toList))) := by simp
  have hblank : ∀ c ∈ [' '], isBlank c := List.all_eq_true.mp rfl
  have hname : ∀ c ∈ "name".toList, isWordChar c := by
    simp only [String.reduceToList, List.forall_mem_cons, List.not_mem_nil, false_imp_iff,
      implies_true, and_true]
    decide
  obtain ⟨value, hvalue⟩ : ∃ value : String → Option String,
      value = fun key => (Members.get? [("name", .text name)] key).map Value.shown := ⟨_, rfl⟩
  have hfilling : value (String.ofList "name".toList) = some name := by
    rw [hvalue, String.ofList_toList]
    rfl
  rw [messageOf, htemplate]
  simp only [fillMessage, fill, Except.ok.injEq]
  rw [← hvalue, hchars, fillChars_append (by simp),
    fillChars_hole hblank (by simp) hname hblank hfilling, fillChars_eq_self (by simp)]
  apply String.toList_injective
  simp

theorem report_violation (notes : Notes) (site : CallSite) :
    notes.report info source (violation source site) =
      .ok { notes with reports := notes.reports ++ [siteReport source site] } := by
  simp only [Notes.report_eq, report, violation, List.mapM_nil, messageOf_name, pure, Except.pure,
    bind, Except.bind]
  rfl

/-- Whether a call is kept in variables that are not found, as a pattern is too deep that is taken
apart for them. -/
def IsOutOfReach (room : Option Nat) (source : Source) (call : Place) : Prop :=
  ∃ declarator pattern, call.owner? = some declarator ∧ TakesApart source declarator pattern ∧
    IsTooDeep room pattern

theorem isDeclarator_of_takesApart {declarator : Place} {pattern : Option Place}
    (h : TakesApart source declarator pattern) : declarator.isDeclarator := by
  obtain ⟨hdeclares, _⟩ | ⟨hdeclares, _⟩ := h <;> exact hdeclares

theorem failsIff_isUnhandledWithin (source : Source) (room : Option Nat) (site : CallSite) :
    FailsIff (isUnhandledWithin source room site) (IsOutOfReach room source site.call) ⟨⟩
      (isUnhandled source site) := by
  unfold isUnhandledWithin isUnhandled
  cases hdeclarator : site.declarator? with
  | none =>
    refine (FailsIff.of_ok true (⟨⟩ : TooDeep)).congr (iff_false_intro ?_)
    rintro ⟨owner, pattern, howner, happart, -⟩
    rw [CallSite.declarator?, howner, Option.filter_some_pos (isDeclarator_of_takesApart happart)]
      at hdeclarator
    cases hdeclarator
  | some declarator =>
    have howner : site.call.owner? = some declarator := (Option.filter_eq_some_iff.mp hdeclarator).1
    refine ((failsIff_declaredVariablesWithin room declarator).map (isLeftUnhandled source)).congr ?_
    simp [IsOutOfReach, howner]

/-- The report of a call, if it is unhandled. -/
def decision (source : Source) (notes : Notes) (site : CallSite) : Notes :=
  if isUnhandled source site then
    { notes with reports := notes.reports ++ [siteReport source site] }
  else notes

theorem failsIff_decideOn (source : Source) (room : Option Nat) (notes : Notes) (site : CallSite) :
    FailsIff (decideOn source room notes site) (IsOutOfReach room source site.call) (.tooDeep ⟨⟩)
      (decision source notes site) := by
  have hreport : (if isUnhandled source site then notes.report info source (violation source site)
      else pure notes) = Except.ok (decision source notes site) := by
    rw [decision]
    split_ifs
    · exact report_violation notes site
    · rfl
  have hdecided := (failsIff_isUnhandledWithin source room site).mapError Failure.tooDeep
  refine FailsIff.congr (hdecided.bind fun _ => ?_) (or_iff_left not_false).symm
  exact hreport ▸ .of_ok (decision source notes site) (Failure.tooDeep ⟨⟩)

theorem foldl_decision (sites : List CallSite) (notes : Notes) :
    sites.foldl (decision source) notes =
      { notes with reports :=
          notes.reports ++ (sites.filter (isUnhandled source)).map (siteReport source) } := by
  induction sites generalizing notes with
  | nil => simp
  | cons site sites ih =>
    rw [List.foldl_cons, ih, decision, List.filter_cons]
    split_ifs
    · simp only [List.append_assoc, List.map_cons, List.singleton_append]
    · rfl

/-- The notes account for the calls seen so far: some could be decided on, and the others are kept. -/
def Accounts (room : Option Nat) (source : Source) (seen : List CallSite) (notes : Notes) : Prop :=
  ∃ decided, decided ++ notes.suspects.items = seen ∧
    (∀ site ∈ decided, ¬ IsOutOfReach room source site.call) ∧
    notes.reports = (decided.filter (isUnhandled source)).map (siteReport source)

variable {limits : Limits}

theorem accounts_onCall {seen : List CallSite} {notes : Notes}
    (h : Accounts limits.depth source seen notes) (p : Place) :
    ∃ notes', onCall limits source (.visit p) notes = .ok notes' ∧
      Accounts limits.depth source (seen ++ suspectsAt source p) notes' := by
  obtain ⟨decided, rfl, hreached, hreports⟩ := h
  cases hsite : callSite? source p with
  | none =>
    refine ⟨notes, ?_, decided, ?_, hreached, hreports⟩
    · simp only [onCall, hsite]
    · simp [suspectsAt, hsite]
  | some site =>
    by_cases hs : isSuspect source site
    · refine ⟨{ notes with suspects := notes.suspects.add site }, ?_, decided, ?_, hreached, hreports⟩
      · simp only [onCall, hsite, if_pos hs]
      · simp [suspectsAt, hsite, hs]
    · refine ⟨notes, ?_, decided, ?_, hreached, hreports⟩
      · simp only [onCall, hsite, if_neg hs]
      · simp [suspectsAt, hsite, hs]

/-- The notes at the end, where some calls have been seen. -/
def finalNotes (source : Source) (seen : List CallSite) : Notes :=
  ⟨.none, (seen.filter (isUnhandled source)).map (siteReport source)⟩

theorem failsIff_onExit {seen : List CallSite} {notes : Notes}
    (h : Accounts limits.depth source seen notes) (occasion : Occasion) :
    FailsIff (onExit limits source occasion notes)
      (∃ site ∈ seen, IsOutOfReach limits.depth source site.call) (.tooDeep ⟨⟩)
      (finalNotes source seen) := by
  obtain ⟨decided, rfl, hreached, hreports⟩ := h
  have hfold := FailsIff.foldlM notes.suspects.items
    (fun own site _ => failsIff_decideOn source limits.depth own site)
    { notes with suspects := .none }
  have hseen : (∃ site ∈ decided ++ notes.suspects.items, IsOutOfReach limits.depth source site.call) ↔
      ∃ site ∈ notes.suspects.items, IsOutOfReach limits.depth source site.call := by
    simp only [List.mem_append, or_and_right, exists_or]
    exact or_iff_right fun ⟨site, hsite, hout⟩ => hreached site hsite hout
  rw [finalNotes, List.filter_append, List.map_append, ← hreports]
  rw [foldl_decision] at hfold
  exact hfold.congr hseen

theorem accounts_finalNotes {seen : List CallSite}
    (h : ¬ ∃ site ∈ seen, IsOutOfReach limits.depth source site.call) :
    Accounts limits.depth source seen (finalNotes source seen) :=
  ⟨seen, List.append_nil _, fun site hsite hout => h ⟨site, hsite, hout⟩, rfl⟩

/-- A run that has seen some calls: its notes account for them, or one of them could not be decided on
and the run has given up. -/
inductive Runs (limits : Limits) (source : Source) (seen : List CallSite) :
    Except Failure Notes → Prop where
  | on {notes : Notes} (accounts : Accounts limits.depth source seen notes) :
    Runs limits source seen (.ok notes)
  | out (outOfReach : ∃ site ∈ seen, IsOutOfReach limits.depth source site.call) :
    Runs limits source seen (.error (.tooDeep ⟨⟩))

/-- The calls of the listeners for a place. -/
def callsAt (p : Place) : List (Listener × Occasion) :=
  (listenersFor rule.listeners p.kind).map (·, .visit p)

/-- One place: the notes go on accounting for what has been seen, or the run gives up. -/
theorem runs_callsAt {seen : List CallSite} {notes : Notes}
    (h : Accounts limits.depth source seen notes) (p : Place) :
    Runs limits source (seen ++ suspectsAt source p)
      ((callsAt p).foldlM (call limits source) notes) := by
  have hlisteners : listenersFor rule.listeners p.kind =
      (if Kind.callExpression = p.kind then [onCall] else []) ++
        ((if programExit = p.kind then [onExit] else []) ++ []) := by
    rw [rule, listenersFor_cons, listenersFor_cons]
    rfl
  rw [callsAt, hlisteners]
  by_cases hcall : Kind.callExpression = p.kind
  · have hexit : programExit ≠ p.kind := hcall ▸ by decide
    obtain ⟨notes', hok, hacc⟩ := accounts_onCall h p
    simp only [if_pos hcall, if_neg hexit, List.append_nil, List.map_cons, List.map_nil,
      List.foldlM_cons, List.foldlM_nil, call, hok]
    exact .on hacc
  · have hnone : suspectsAt source p = [] :=
      suspectsAt_eq_nil fun hk => hcall (beq_iff_eq.mp hk).symm
    rw [hnone, List.append_nil seen]
    by_cases hexit : programExit = p.kind
    · have hdone := failsIff_onExit h (.visit p)
      simp only [if_neg hcall, if_pos hexit, List.append_nil, List.nil_append, List.map_cons,
        List.map_nil, List.foldlM_cons, List.foldlM_nil, call]
      by_cases hout : ∃ site ∈ seen, IsOutOfReach limits.depth source site.call
      · rw [hdone.error hout]
        exact .out hout
      · rw [hdone.ok hout]
        exact .on (accounts_finalNotes hout)
    · simp only [if_neg hcall, if_neg hexit, List.append_nil, List.map_nil, List.foldlM_nil]
      exact .on h

/-- All places in turn. -/
theorem runs_visits (places : List Place) {seen : List CallSite} {notes : Notes}
    (h : Accounts limits.depth source seen notes) :
    Runs limits source (seen ++ places.flatMap (suspectsAt source))
      ((places.flatMap callsAt).foldlM (call limits source) notes) := by
  induction places generalizing seen notes with
  | nil =>
    rw [List.flatMap_nil, List.append_nil]
    exact .on h
  | cons p places ih =>
    have hstep := runs_callsAt h p
    rw [List.flatMap_cons, List.flatMap_cons, List.foldlM_append, ← List.append_assoc]
    generalize (callsAt p).foldlM (call limits source) notes = next at hstep
    cases hstep with
    | on hacc => exact ih hacc
    | out hout =>
      obtain ⟨site, hsite, hout⟩ := hout
      exact .out ⟨site, List.mem_append_left _ hsite, hout⟩

/-- The suspect calls of a source, in the order of the tree. -/
def suspects (source : Source) : List CallSite := source.tree.places.flatMap (suspectsAt source)

/-- The calls that are reported, in the order of the tree. -/
def unhandledSites (source : Source) : List CallSite :=
  (source.tree.places.flatMap (suspectsAt source)).filter (isUnhandled source)

/-- Whether the rule gives up on a source. -/
def GivesUp (limits : Limits) (source : Source) : Prop :=
  ∃ site ∈ suspects source, IsOutOfReach limits.depth source site.call

theorem not_givesUp_unlimited (source : Source) : ¬ GivesUp .unlimited source := by
  rintro ⟨site, -, declarator, pattern, -, -, hdeep⟩
  exact not_isTooDeep_unlimited pattern hdeep

/-- The rule never gives up on a tree with less levels than there is room. -/
theorem not_givesUp_of_shallow
    (h : ∀ n, limits.depth = some n → ∀ p ∈ source.tree.places, p.depth + 1 < n) :
    ¬ GivesUp limits source := by
  rintro ⟨site, hsite, declarator, pattern, howner, happart, hdeep⟩
  obtain ⟨p, hp, hsuspect⟩ := List.mem_flatMap.mp hsite
  cases (callSite?_eq_some_iff.mp (mem_suspectsAt_iff.mp hsuspect).1).1
  have hdeclarator : declarator ∈ source.tree.places :=
    mem_places_of_mem_ancestors hp (mem_ancestors_of_owner? howner)
  refine not_isTooDeep_of_shallow (fun q hq => ?_) h hdeep
  cases hq
  exact happart.mem_places hdeclarator

/-- Within limits, the rule comes to the notes that it comes to without, or it gives up. -/
theorem failsIff_soloWalk_rule (limits : Limits) (source : Source) :
    FailsIff (soloWalk source rule limits) (GivesUp limits source) (.tooDeep ⟨⟩)
      ⟨.none, (unhandledSites source).map (siteReport source)⟩ := by
  have hempty : Accounts limits.depth source [] Notes.empty := ⟨[], rfl, nofun, rfl⟩
  have hvisits := runs_visits source.tree.places hempty
  have hfinish : listenersFor rule.listeners programExit = [onExit] := rfl
  have hcalls : soloCalls rule source.tree =
      source.tree.places.flatMap callsAt ++ [(onExit, .finish)] := by
    rw [soloCalls, hfinish]
    rfl
  rw [soloWalk, hcalls, List.foldlM_append]
  rw [List.nil_append] at hvisits
  generalize (source.tree.places.flatMap callsAt).foldlM (call limits source) Notes.empty = visited
    at hvisits
  cases hvisits with
  | on hacc =>
    have hdone := failsIff_onExit hacc .finish
    refine ⟨fun hout => ?_, fun hin => ?_⟩
    · exact congrArg (· >>= pure) (hdone.error hout)
    · exact congrArg (· >>= pure) (hdone.ok hin)
  | out hout => exact ⟨fun _ => rfl, fun hin => absurd hout hin⟩

theorem soloWalk_rule (source : Source) :
    soloWalk source rule = .ok ⟨.none, (unhandledSites source).map (siteReport source)⟩ :=
  (failsIff_soloWalk_rule .unlimited source).ok (not_givesUp_unlimited source)

theorem unhandledSites_sublist (source : Source) :
    ((unhandledSites source).map (·.call)).Sublist source.tree.places := by
  have hone : ∀ p, ((suspectsAt source p).map (·.call)).Sublist [p] := by
    intro p
    unfold suspectsAt
    cases hs : callSite? source p with
    | none => exact List.nil_sublist _
    | some site =>
      have hcall : [site].map (·.call) = [p] := by
        rw [List.map_singleton, (callSite?_eq_some_iff.mp hs).1]
      rw [← hcall]
      exact List.filter_sublist.map _
  have hall : ((source.tree.places.flatMap (suspectsAt source)).map (·.call)).Sublist
      (source.tree.places.flatMap fun p => [p]) := by
    rw [List.map_flatMap]
    exact List.Sublist.flatMap_right _ fun p _ => hone p
  rw [List.flatMap_singleton'] at hall
  exact (List.filter_sublist.map _).trans hall

theorem mem_unhandledSites_iff {site : CallSite} :
    site ∈ unhandledSites source ↔
      site.call ∈ source.tree.places ∧ site ∈ suspectsAt source site.call ∧
        isUnhandled source site := by
  simp only [unhandledSites, List.mem_filter, List.mem_flatMap]
  constructor
  · intro h
    obtain ⟨⟨p, hp, hs⟩, hu⟩ := h
    cases (callSite?_eq_some_iff.mp (mem_suspectsAt_iff.mp hs).1).1
    exact ⟨hp, hs, hu⟩
  · intro h
    obtain ⟨hp, hs, hu⟩ := h
    exact ⟨⟨site.call, hp, hs⟩, hu⟩

theorem callSite?_of_mem_unhandledSites {site : CallSite} (h : site ∈ unhandledSites source) :
    callSite? source site.call = some site :=
  (mem_suspectsAt_iff.mp (mem_unhandledSites_iff.mp h).2.1).1

theorem mem_map_call_unhandledSites_iff {call : Place} :
    call ∈ (unhandledSites source).map (·.call) ↔
      call ∈ source.tree.places ∧ IsUnhandledQuery source call := by
  rw [List.mem_map, isUnhandledQuery_iff]
  constructor
  · intro h
    obtain ⟨site, hs, rfl⟩ := h
    obtain ⟨hp, hsuspect, hu⟩ := mem_unhandledSites_iff.mp hs
    exact ⟨hp, site, hsuspect, hu⟩
  · intro h
    obtain ⟨hp, site, hs, hu⟩ := h
    cases (callSite?_eq_some_iff.mp (mem_suspectsAt_iff.mp hs).1).1
    exact ⟨site, mem_unhandledSites_iff.mpr ⟨hp, hs, hu⟩, rfl⟩

/-- No name is reported twice, as it is called by one call at most. -/
theorem nodup_identifiers (source : Source) :
    ((unhandledSites source).map (·.identifier)).Nodup := by
  have hcalls : ((unhandledSites source).map (·.call)).Nodup :=
    (unhandledSites_sublist source).nodup (nodup_preorder _)
  rw [List.Nodup, List.pairwise_map] at hcalls ⊢
  refine hcalls.imp_of_mem fun h₁ h₂ hne heq => hne ?_
  obtain ⟨_, hc₁, hi₁, _⟩ := callSite?_eq_some_iff.mp (callSite?_of_mem_unhandledSites h₁)
  obtain ⟨_, hc₂, hi₂, _⟩ := callSite?_eq_some_iff.mp (callSite?_of_mem_unhandledSites h₂)
  rw [← calledName?_eq_some_iff] at hi₁ hi₂
  exact call_eq_of_calledName? hc₁ hc₂ hi₁ (heq ▸ hi₂)

/-- With only this rule, each query that nobody handles is reported once, at its name, and nothing
else is. -/
theorem lintSource_reports_unhandled {config : Config} {rules : Option (List String)}
    (h : rules = some [info.id] ∨ rules = none ∧ config.enabledRules = [info.id]) :
    ∃ severity findings, ∃ sites : List CallSite,
      lintSource source config rules = .ok findings ∧ severity ≠ .off ∧
      (findings.map fun f => { f with id := "" }).Perm
        (sites.map fun site => (siteReport source site).toFinding info severity source) ∧
      (∀ site ∈ sites, callSite? source site.call = some site) ∧
      (∀ call, call ∈ sites.map (·.call) ↔
        call ∈ source.tree.places ∧ IsUnhandledQuery source call) ∧
      (sites.map (·.call)).Sublist source.tree.places ∧ (sites.map (·.call)).Nodup ∧
      (sites.map (·.identifier)).Nodup := by
  have hid : Rule.ofId? info.id = some rule := by
    simp [Rule.ofId?, Rule.registered, rule]
  obtain ⟨severity, hsev, hchoose⟩ := choose_single h hid (by decide)
  refine ⟨severity, _, unhandledSites source, lintSource_single hchoose (soloWalk_rule source),
    hsev, ?_, fun _ => callSite?_of_mem_unhandledSites, fun _ => mem_map_call_unhandledSites_iff,
    unhandledSites_sublist source, (unhandledSites_sublist source).nodup (nodup_preorder _),
    nodup_identifiers source⟩
  refine (arrange_perm _).trans ?_
  rw [List.map_map, List.map_map]
  exact .of_eq rfl

/-- `findByText(); await findByRole()` -/
def looseQuery : Source where
  path := "a.js"
  text := "findByText(); await findByRole()"
  language := .javascript
  tree :=
    .named "program" 0 32 none [
      .named "expression_statement" 0 13 none [
        .named "call_expression" 0 12 none [
          .named "identifier" 0 10 (some .function) [],
          .named "arguments" 10 12 (some .arguments) []]],
      .named "expression_statement" 14 32 none [
        .named "await_expression" 14 32 none [
          .named "call_expression" 20 32 none [
            .named "identifier" 20 30 (some .function) [],
            .named "arguments" 30 32 (some .arguments) []]]]]

/-- Of the two queries in `looseQuery` the first is reported. -/
theorem lintSource_looseQuery :
    ∃ findings, lintSource looseQuery .default (some [info.id]) = .ok findings ∧
      findings.map (·.data) = [[("name", .text "findByText")]] := by
  obtain ⟨severity, findings, sites, hok, _, hperm, hsite, hcalls, _, hnodup, _⟩ :=
    @lintSource_reports_unhandled looseQuery .default (some [info.id]) (.inl rfl)
  let query : CallSite :=
    ⟨looseQuery.tree.placeAt 3, looseQuery.tree.placeAt 3, looseQuery.tree.placeAt 2⟩
  have hunhandled : (unhandledSites looseQuery).map (·.call) = [looseQuery.tree.placeAt 2] := rfl
  have hcall : sites.map (·.call) = [looseQuery.tree.placeAt 2] := by
    refine List.perm_singleton.mp
      ((List.perm_ext_iff_of_nodup hnodup (List.nodup_singleton _)).mpr fun call => ?_)
    rw [hcalls, ← mem_map_call_unhandledSites_iff, hunhandled]
  obtain ⟨site, rfl, hs⟩ := List.map_eq_singleton_iff.mp hcall
  have hquery : callSite? looseQuery (looseQuery.tree.placeAt 2) = some query := rfl
  have heq : site = query := by
    have hfound := hsite site List.mem_cons_self
    rw [hs, hquery] at hfound
    exact (Option.some.inj hfound).symm
  refine ⟨findings, hok, ?_⟩
  obtain ⟨finding, rfl, hfinding⟩ := List.map_eq_singleton_iff.mp (List.perm_singleton.mp hperm)
  have hname : query.name looseQuery = "findByText" := by decide
  have hdata := congrArg Finding.data hfinding
  simp only [heq, Report.toFinding, siteReport, hname] at hdata
  rw [List.map_singleton, hdata]

end QueryLint.Rule.AwaitQuery
