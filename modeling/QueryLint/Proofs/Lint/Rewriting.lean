import QueryLint.Proofs.Code.Paths
import QueryLint.Proofs.Lint.Suggest
import QueryLint.Proofs.Related

/-!
# Trees after suggestions are applied

A tree is rewritten by putting in place of each innermost wait the call that its replacement spells,
and leaving everything else as it is. Since a search for a wait looks at kinds, parts and names only, it
comes to the same result at a place that was left and at what it has become, even if calls further
inside were replaced: the query of a wait is never one of them, for what owns it is an arrow function.
-/
namespace QueryLint.Lint

open QueryLint.Code QueryLint.Code.Place QueryLint.Query QueryLint.Rule.PreferFind

/-- Whether a place has no children and is of a kind, and which part it plays. -/
structure IsLeaf (p : Place) (kind : Kind) (named : Bool) (role : Option Role) : Prop where
  kind_eq : p.kind = kind
  named_eq : p.label.isNamed = named
  role_eq : p.label.role = role
  leaf : p.children = []

/-- Whether what is called spells a name, as a member of an object if there is one. -/
inductive SpellsCallee (source : Source) (callee : Place) (name : String) : Option String → Prop
  | bare (hcallee : IsLeaf callee Kind.identifier true (some .function))
      (hname : source.textOf callee = name) : SpellsCallee source callee name none
  | member {object dot property : Place} {caller : String}
      (hkind : callee.kind = Kind.memberExpression) (hrole : callee.label.role = some .function)
      (hchildren : callee.children = [object, dot, property])
      (hobject : IsLeaf object Kind.identifier true (some .object))
      (hdot : IsLeaf dot "." false none)
      (hproperty : IsLeaf property Kind.propertyIdentifier true (some .property))
      (hcaller : source.textOf object = caller) (hname : source.textOf property = name) :
      SpellsCallee source callee name (some caller)

/-- The punctuation of a list of arguments. -/
def listTokens : List Kind := ["(", ",", ")"]

/-- Whether a call is made of a name, of an object if there is one, and a list of arguments. -/
structure SpellsCall (source : Source) (call : Place) (caller : Option String) (name : String)
    (arguments : List Place) : Prop where
  kind_eq : call.kind = Kind.callExpression
  spelled : ∃ function list, call.children = [function, list] ∧
    SpellsCallee source function name caller ∧ list.kind = Kind.arguments ∧
    list.label.role = some .arguments ∧ list.parts = arguments ∧
    ∀ c ∈ list.children, c ∈ arguments ∨ ∃ token ∈ listTokens, IsLeaf c token false none

/-- Whether two places have the same label, apart from their ranges. -/
def Resembles (p p' : Place) : Prop :=
  p'.label = { p.label with start := p'.start, stop := p'.stop }

/-- `p'` is what has become of `p`: of an innermost wait, the call that its replacement spells, with
the arguments of the query that was waited for; and of any other place, a place of the same kind with
the same name if it is one, and what has become of its children. -/
inductive Rewritten (source source' : Source) : Place → Place → Prop
  | kept {p p' : Place} (hkept : p ∉ innermostWaits source) (hlabel : Resembles p p')
      (hname : p.isIdentifier → source'.textOf p' = source.textOf p)
      (hchildren : List.Forall₂ (Rewritten source source') p.children p'.children) :
      Rewritten source source' p p'
  | replaced {p p' q : Place} {v : String × String} {a : String} {caller : Option String}
      {arguments : List Place} (hinnermost : p ∈ innermostWaits source) (hlabel : Resembles p p')
      (hv : v ∈ waitingVariants) (ha : a ∈ accessors) (hwait : IsWait source p q (v.1 ++ a) caller)
      (hcall : SpellsCall source' p' caller (v.2 ++ a) arguments)
      (harguments : List.Forall₂ (Rewritten source source') q.callArguments arguments) :
      Rewritten source source' p p'

variable {source source' : Source} {p p' : Place}

theorem Resembles.kind_eq (h : Resembles p p') : p'.kind = p.kind := by
  rw [Place.kind, h, Place.kind]

theorem Resembles.role_eq (h : Resembles p p') : p'.label.role = p.label.role := by
  rw [h]

theorem Resembles.isNamed_eq (h : Resembles p p') : p'.label.isNamed = p.label.isNamed := by
  rw [h]

theorem Resembles.hasError_eq (h : Resembles p p') : p'.label.hasError = p.label.hasError := by
  rw [h]

theorem Rewritten.label (h : Rewritten source source' p p') : Resembles p p' := by
  cases h with
  | kept _ hlabel _ _ => exact hlabel
  | replaced _ hlabel _ _ _ _ _ => exact hlabel

theorem isCall_of_mem_innermostWaits (h : p ∈ innermostWaits source) : p.isCall := by
  obtain ⟨_, q, method, caller, hwait⟩ := mem_waits_iff.mp (List.mem_filter.mp h).1
  obtain ⟨callee, _, hcallee, _⟩ := hwait.waits.waiting
  exact isCall_of_callee? hcallee

theorem not_mem_innermostWaits (h : p.kind ≠ Kind.callExpression) : p ∉ innermostWaits source :=
  fun hp => h (beq_iff_eq.mp (isCall_of_mem_innermostWaits hp))

theorem not_mem_innermostWaits_of_owner? {owner : Place} (h : p.owner? = some owner)
    (howner : ¬ owner.isAwait) : p ∉ innermostWaits source := by
  intro hp
  obtain ⟨_, q, method, caller, hwait⟩ := mem_waits_iff.mp (List.mem_filter.mp hp).1
  obtain ⟨_, howner', hawait⟩ := hwait.awaited
  cases h.symm.trans howner'
  exact howner hawait

theorem Rewritten.children (h : Rewritten source source' p p') (hp : p ∉ innermostWaits source) :
    List.Forall₂ (Rewritten source source') p.children p'.children := by
  cases h with
  | kept _ _ _ hchildren => exact hchildren
  | replaced hinnermost _ _ _ _ _ _ => exact absurd hinnermost hp

theorem Rewritten.nameOf? (h : Rewritten source source' p p') :
    source.nameOf? p = source'.nameOf? p' := by
  have hkind : p'.isIdentifier = p.isIdentifier := by
    rw [isIdentifier, isIdentifier, h.label.kind_eq]
  rw [Source.nameOf?, Source.nameOf?, hkind]
  split_ifs with hname
  · cases h with
    | kept _ _ htext _ => rw [htext hname]
    | replaced hinnermost _ _ _ _ _ _ =>
      rw [isIdentifier, beq_iff_eq.mp (isCall_of_mem_innermostWaits hinnermost)] at hname
      exact absurd hname (by decide)
  · rfl

theorem Rewritten.childAs (h : Rewritten source source' p p') (hp : p ∉ innermostWaits source)
    (role : Role) :
    Option.Rel (Rewritten source source') (p.childAs role) (p'.childAs role) :=
  rel_find? (h.children hp) fun _ _ hc => by rw [hc.label.role_eq]

theorem Rewritten.parts (h : Rewritten source source' p p') (hp : p ∉ innermostWaits source) :
    List.Forall₂ (Rewritten source source') p.parts p'.parts := by
  refine forall₂_filter (forall₂_filter (h.children hp) ?_) ?_
  · exact fun _ _ hc => hc.label.isNamed_eq.symm
  · exact fun _ _ hc => by rw [hc.label.kind_eq]

theorem Rewritten.unwrap (h : Rewritten source source' p p') :
    Option.Rel (Rewritten source source') p.unwrap p'.unwrap := by
  induction p using children_induction generalizing p' with
  | step p ih =>
    rw [unwrap_eq, unwrap_eq, h.label.kind_eq]
    split_ifs with hk
    · have hp : p ∉ innermostWaits source := not_mem_innermostWaits (by rw [hk]; decide)
      refine rel_bind (rel_head? (h.parts hp)) fun c c' hc hcc => ?_
      exact ih c (mem_children_of_mem_parts (List.mem_of_mem_head? hc)) hcc
    · exact .some h

/-- At a place that was left, what is called has become what is called now. -/
theorem Rewritten.callee? (h : Rewritten source source' p p') (hp : p ∉ innermostWaits source) :
    Option.Rel (Rewritten source source') p.callee? p'.callee? := by
  rw [Place.callee?, Place.callee?, isCall, isCall, h.label.kind_eq]
  split_ifs
  · exact rel_bind (h.childAs hp _) fun _ _ _ hc => hc.unwrap
  · exact .none

theorem Rewritten.callArguments (h : Rewritten source source' p p')
    (hp : p ∉ innermostWaits source) :
    List.Forall₂ (Rewritten source source') p.callArguments p'.callArguments := by
  rw [Place.callArguments, Place.callArguments, isCall, isCall, h.label.kind_eq]
  split_ifs
  · have hlist := h.childAs hp .arguments
    generalize p.childAs .arguments = list at hlist ⊢
    generalize p'.childAs .arguments = list' at hlist ⊢
    cases hlist with
    | none => exact .nil
    | some hlist =>
      simp only [hlist.label.kind_eq]
      split_ifs with hk
      · exact hlist.parts (not_mem_innermostWaits (by rw [hk]; decide))
      · exact .nil
  · exact .nil

theorem Rewritten.object? (h : Rewritten source source' p p') :
    Option.Rel (Rewritten source source') p.object? p'.object? := by
  rw [Place.object?, Place.object?, isMember, isMember, h.label.kind_eq]
  split_ifs with hk
  · have hp : p ∉ innermostWaits source :=
      not_mem_innermostWaits (by rw [beq_iff_eq.mp hk]; decide)
    exact rel_bind (h.childAs hp _) fun _ _ _ hc => hc.unwrap
  · exact .none

theorem Rewritten.property? (h : Rewritten source source' p p') :
    Option.Rel (Rewritten source source') p.property? p'.property? := by
  rw [Place.property?, Place.property?, isMember, isMember, h.label.kind_eq]
  split_ifs with hk
  · exact h.childAs (not_mem_innermostWaits (by rw [beq_iff_eq.mp hk]; decide)) _
  · exact .none

theorem Rewritten.body? (h : Rewritten source source' p p') :
    Option.Rel (Rewritten source source') p.body? p'.body? := by
  rw [Place.body?, Place.body?, isArrow, isArrow, h.label.kind_eq]
  split_ifs with hk
  · exact h.childAs (not_mem_innermostWaits (by rw [beq_iff_eq.mp hk]; decide)) _
  · exact .none

theorem not_isAwait_of_isArrow (h : p.isArrow) : ¬ p.isAwait := by
  rw [isAwait, beq_iff_eq.mp h]
  decide

theorem Rewritten.isEmpty_parameters (h : Rewritten source source' p p') :
    p'.parameters.isEmpty = p.parameters.isEmpty := by
  rw [Place.parameters, Place.parameters, isArrow, isArrow, h.label.kind_eq]
  split_ifs with hk
  · have hp : p ∉ innermostWaits source :=
      not_mem_innermostWaits (by rw [beq_iff_eq.mp hk]; decide)
    have hone := h.childAs hp .parameter
    have hmany := h.childAs hp .parameters
    have hkept : ∀ list, p.childAs .parameters = some list → list ∉ innermostWaits source := by
      intro list hlist
      have howner : list.owner? = some p :=
        owner?_of_mem_children (by rw [beq_iff_eq.mp hk]; decide) (mem_children_of_childAs hlist)
      exact not_mem_innermostWaits_of_owner? howner (not_isAwait_of_isArrow hk)
    generalize p.childAs .parameter = one at hone ⊢
    generalize p'.childAs .parameter = one' at hone ⊢
    generalize p.childAs .parameters = many at hmany hkept ⊢
    generalize p'.childAs .parameters = many' at hmany ⊢
    cases hone with
    | some _ => rfl
    | none =>
      cases hmany with
      | none => rfl
      | some hlist =>
        have hparts := hlist.parts (hkept _ rfl)
        rw [Bool.eq_iff_iff, List.isEmpty_iff_length_eq_zero, List.isEmpty_iff_length_eq_zero,
          hparts.length_eq]
  · rfl

/-- Whether two queries agree in what they call, and the arguments of one have become those of the
other. -/
def SameQuery (source source' : Source) (a b : WaitedQuery) : Prop :=
  a.method = b.method ∧ a.caller = b.caller ∧
    List.Forall₂ (Rewritten source source') a.arguments b.arguments

theorem Rewritten.syncQuery? (h : Rewritten source source' p p') (hp : p ∉ innermostWaits source) :
    Option.Rel (SameQuery source source') (syncQuery? source p) (syncQuery? source' p') := by
  have harguments := h.callArguments hp
  refine rel_bind (h.callee? hp) fun callee callee' _ hcallee => ?_
  have hmember : callee'.isMember = callee.isMember := by
    rw [isMember, isMember, hcallee.label.kind_eq]
  have hmethod : source.propertyName? callee = source'.propertyName? callee' :=
    bind_eq_bind_of_rel hcallee.property? fun _ _ hproperty => hproperty.nameOf?
  have hsync : ∀ method caller, Option.Rel (SameQuery source source')
      (if isSync method then some ⟨method, caller, p.callArguments⟩ else none)
      (if isSync method then some ⟨method, caller, p'.callArguments⟩ else none) := by
    intro method caller
    split_ifs
    · exact .some ⟨rfl, rfl, harguments⟩
    · exact .none
  simp only [hmember]
  by_cases hk : callee.isMember
  · rw [if_pos hk, if_pos hk]
    refine rel_bind hcallee.object? fun object object' _ hobject => ?_
    simp only [hobject.nameOf?, hmethod]
    cases source'.nameOf? object' with
    | none => exact .none
    | some caller =>
      cases source'.propertyName? callee' with
      | none => exact .none
      | some method => exact hsync method (some caller)
  · rw [if_neg hk, if_neg hk, hcallee.nameOf?]
    cases source'.nameOf? callee' with
    | none => exact .none
    | some method => exact hsync method none

/-- The query of a wait is no innermost wait itself: an arrow function owns it. -/
theorem kept_of_body? {callback body q : Place} (hcallback : callback.isArrow)
    (hbody : callback.body? = some body) (hq : body.unwrap = some q) :
    q ∉ innermostWaits source := by
  have hchild : body ∈ callback.children := by
    rw [Place.body?, if_pos hcallback] at hbody
    exact mem_children_of_childAs hbody
  have howner : q.owner? = some callback :=
    owner?_of_unwrap_child (by rw [beq_iff_eq.mp hcallback]; decide) hchild hq
  exact not_mem_innermostWaits_of_owner? howner (not_isAwait_of_isArrow hcallback)

/-- A place that was left waits for the same query, or for none, as before. -/
theorem Rewritten.waitedQuery? (h : Rewritten source source' p p')
    (hp : p ∉ innermostWaits source) :
    Option.Rel (SameQuery source source') (waitedQuery? source p) (waitedQuery? source' p') := by
  have hname : p.callee?.bind source.nameOf? = p'.callee?.bind source'.nameOf? :=
    bind_eq_bind_of_rel (h.callee? hp) fun _ _ hcallee => hcallee.nameOf?
  have harguments := h.callArguments hp
  unfold Query.waitedQuery?
  rw [hname]
  cases p'.callee?.bind source'.nameOf? with
  | none => exact .none
  | some name =>
    simp only [Option.bind_eq_bind, Option.bind_some]
    split_ifs with hwaits
    · generalize p.callArguments = arguments at harguments ⊢
      generalize p'.callArguments = arguments' at harguments ⊢
      match harguments with
      | .nil => exact .none
      | .cons _ (.cons _ _) => exact .none
      | .cons hargument .nil =>
        refine rel_bind hargument.unwrap fun callback callback' _ hcallback => ?_
        have hform : (callback'.isArrow && callback'.parameters.isEmpty) =
            (callback.isArrow && callback.parameters.isEmpty) := by
          rw [hcallback.isEmpty_parameters, isArrow, isArrow, hcallback.label.kind_eq]
        rw [hform]
        by_cases hk : (callback.isArrow && callback.parameters.isEmpty) = true
        · rw [if_pos hk, if_pos hk]
          have hbodies : Option.Rel (Rewritten source source') (callback.body?.bind (·.unwrap))
              (callback'.body?.bind (·.unwrap)) :=
            rel_bind hcallback.body? fun _ _ _ hbody => hbody.unwrap
          refine rel_bind hbodies fun q q' hq hrewritten => ?_
          obtain ⟨body, hbody, hunwrap⟩ := Option.bind_eq_some_iff.mp hq
          rw [Bool.and_eq_true] at hk
          have hkept : q ∉ innermostWaits source := kept_of_body? hk.1 hbody hunwrap
          rw [isCall, isCall, hrewritten.label.kind_eq]
          split_ifs
          · exact hrewritten.syncQuery? hkept
          · exact .none
        · rw [if_neg hk, if_neg hk]
          exact .none
    · exact .none

/-- At a place that was left there is a wait if there was one. -/
theorem Rewritten.isSome_reportAt? (h : Rewritten source source' p p')
    (hp : p ∉ innermostWaits source)
    (howner : p'.owner?.any (·.isAwait) = p.owner?.any (·.isAwait)) :
    (reportAt? source' p').isSome = (reportAt? source p).isSome := by
  rw [reportAt?, reportAt?, Option.isSome_map, Option.isSome_map, awaitedWait?, awaitedWait?, howner]
  split_ifs
  · exact isSome_eq_of_rel (h.waitedQuery? hp)
  · rfl

theorem any_owner?_of_mem_children {c : Place} (h : c ∈ p.children) :
    c.owner?.any (·.isAwait) =
      if transparentKinds.contains p.kind then p.owner?.any (·.isAwait) else p.isAwait := by
  rw [owner?, owners_of_mem_children h]
  split_ifs <;> rfl

theorem Rewritten.any_owner?_children (h : Rewritten source source' p p')
    (howner : p'.owner?.any (·.isAwait) = p.owner?.any (·.isAwait)) {c c' : Place}
    (hc : c ∈ p.children) (hc' : c' ∈ p'.children) :
    c'.owner?.any (·.isAwait) = c.owner?.any (·.isAwait) := by
  have hawait : p'.isAwait = p.isAwait := by rw [isAwait, isAwait, h.label.kind_eq]
  rw [any_owner?_of_mem_children hc, any_owner?_of_mem_children hc', h.label.kind_eq, howner, hawait]

/-- Where there was no wait, none has come up. -/
theorem Rewritten.reportAt?_eq_none (h : Rewritten source source' p p')
    (howner : p'.owner?.any (·.isAwait) = p.owner?.any (·.isAwait))
    (hnone : ∀ w ∈ p.preorder, reportAt? source w = none) {w' : Place} (hw' : w' ∈ p'.preorder) :
    reportAt? source' w' = none := by
  induction p using children_induction generalizing p' with
  | step p ih =>
    have hself := hnone p (mem_preorder_self p)
    have hp : p ∉ innermostWaits source := by
      intro hp
      have hsome := (List.mem_filter.mp (List.mem_filter.mp hp).1).2
      rw [hself] at hsome
      cases hsome
    rcases mem_preorder_iff.mp hw' with rfl | ⟨c', hc', hw'⟩
    · have hsome := h.isSome_reportAt? hp howner
      rw [hself] at hsome
      exact Option.isNone_iff_eq_none.mp (Option.isSome_eq_false_iff.mp hsome)
    · obtain ⟨c, hc, hrewritten⟩ := exists_of_forall₂ (h.children hp) hc'
      refine ih c hc hrewritten (h.any_owner?_children howner hc hc') ?_ hw'
      exact fun w hw => hnone w (mem_preorder_iff.mpr (.inr ⟨c, hc, hw⟩))

theorem reportAt?_eq_none_of_kind {kind : Kind} (h : p.kind = kind)
    (hkind : kind ≠ Kind.callExpression) : reportAt? source p = none :=
  Rule.PreferFind.reportAt?_eq_none fun hcall => hkind (h ▸ beq_iff_eq.mp hcall)

theorem IsLeaf.reportAt?_eq_none {kind : Kind} {named : Bool} {role : Option Role}
    (h : IsLeaf p kind named role) (hkind : kind ≠ Kind.callExpression) :
    ∀ w ∈ p.preorder, reportAt? source w = none := by
  intro w hw
  rw [preorder_eq, descendants, h.leaf, List.flatMap_nil, List.mem_singleton] at hw
  subst hw
  exact reportAt?_eq_none_of_kind h.kind_eq hkind

namespace SpellsCallee

variable {callee : Place} {name : String} {caller : Option String}

theorem unwrap (h : SpellsCallee source callee name caller) : callee.unwrap = some callee := by
  have hkind : callee.kind ≠ Kind.parenthesized := by
    cases h with
    | bare hcallee _ =>
      rw [hcallee.kind_eq]
      decide
    | member hkind _ _ _ _ _ _ _ =>
      rw [hkind]
      decide
  rw [unwrap_eq, if_neg hkind]

theorem role_eq (h : SpellsCallee source callee name caller) :
    callee.label.role = some .function := by
  cases h with
  | bare hcallee _ => exact hcallee.role_eq
  | member _ hrole _ _ _ _ _ _ => exact hrole

theorem eq_of_nameOf? {spelled : String} (h : SpellsCallee source callee name caller)
    (hspelled : source.nameOf? callee = some spelled) : spelled = name := by
  obtain ⟨hidentifier, htext⟩ := nameOf?_eq_some_iff.mp hspelled
  cases h with
  | bare _ hname => exact htext.symm.trans hname
  | member hkind _ _ _ _ _ _ _ =>
    rw [isIdentifier, hkind] at hidentifier
    exact absurd hidentifier (by decide)

theorem reportAt?_eq_none (h : SpellsCallee source callee name caller) :
    ∀ w ∈ callee.preorder, reportAt? source w = none := by
  cases h with
  | bare hcallee _ => exact hcallee.reportAt?_eq_none (by decide)
  | member hkind _ hchildren hobject hdot hproperty _ _ =>
    intro w hw
    rcases mem_preorder_iff.mp hw with rfl | ⟨c, hc, hwc⟩
    · exact reportAt?_eq_none_of_kind hkind (by decide)
    · rw [hchildren] at hc
      simp only [List.mem_cons, List.not_mem_nil, or_false] at hc
      rcases hc with rfl | rfl | rfl
      · exact hobject.reportAt?_eq_none (by decide) w hwc
      · exact hdot.reportAt?_eq_none (by decide) w hwc
      · exact hproperty.reportAt?_eq_none (by decide) w hwc

end SpellsCallee

/-- The call by a waiting form is no wait, and none is in it if none is among its arguments. -/
theorem SpellsCall.reportAt?_eq_none {call : Place} {name : String} {caller : Option String}
    {arguments : List Place} (h : SpellsCall source call caller name arguments)
    (hname : name ∉ waitNames)
    (harguments : ∀ c ∈ arguments, ∀ w ∈ c.preorder, reportAt? source w = none) :
    ∀ w ∈ call.preorder, reportAt? source w = none := by
  obtain ⟨function, list, hchildren, hspelled, hlist, _, _, hrest⟩ := h.spelled
  intro w hw
  rcases mem_preorder_iff.mp hw with rfl | ⟨c, hc, hwc⟩
  · by_contra hsome
    obtain ⟨q, method, caller', hwait⟩ :=
      isSome_reportAt?_iff.mp (Option.isSome_iff_ne_none.mpr hsome)
    obtain ⟨callee, spelled, hcallee, hspells, hwaits⟩ := hwait.waits.waiting
    have hcall : w.isCall := beq_iff_eq.mpr h.kind_eq
    have hfunction : w.callee? = some function := by
      rw [callee?, if_pos hcall, childAs, hchildren, List.find?_cons_of_pos (by simp [hspelled.role_eq]),
        Option.bind_some, hspelled.unwrap]
    cases hfunction.symm.trans hcallee
    exact hname (hspelled.eq_of_nameOf? hspells ▸ hwaits)
  · rw [hchildren] at hc
    simp only [List.mem_cons, List.not_mem_nil, or_false] at hc
    rcases hc with rfl | rfl
    · exact hspelled.reportAt?_eq_none w hwc
    · rcases mem_preorder_iff.mp hwc with rfl | ⟨d, hd, hwd⟩
      · exact reportAt?_eq_none_of_kind hlist (by decide)
      · rcases hrest d hd with hargument | ⟨token, htoken, hleaf⟩
        · exact harguments d hargument w hwd
        · have htokens : ∀ token ∈ listTokens, token ≠ Kind.callExpression := by decide
          exact hleaf.reportAt?_eq_none (htokens token htoken) w hwd

/-- An argument of a call is owned by the call. -/
theorem any_owner?_of_argument {q list c : Place} (hcall : q.isCall) (hlist : list ∈ q.children)
    (hkind : list.kind = Kind.arguments) (hc : c ∈ list.children) :
    c.owner?.any (·.isAwait) = false := by
  have htransparent : transparentKinds.contains list.kind = true := by
    rw [hkind]
    decide
  have hopaque : transparentKinds.contains q.kind = false := by
    rw [beq_iff_eq.mp hcall]
    decide
  rw [any_owner?_of_mem_children hc, if_pos htransparent, any_owner?_of_mem_children hlist,
    if_neg (Bool.eq_false_iff.mp hopaque), isAwait, beq_iff_eq.mp hcall]
  decide

theorem mem_outerWaits_iff : p ∈ outerWaits source ↔ p ∈ waits source ∧ p ∉ innermostWaits source := by
  simp only [outerWaits, innermostWaits, List.mem_filter, decide_eq_true_eq]
  constructor
  · rintro ⟨hp, v, hv, hwithin⟩
    exact ⟨hp, fun hinnermost => hinnermost.2 v hv hwithin⟩
  · rintro ⟨hp, hinnermost⟩
    refine ⟨hp, ?_⟩
    by_contra hnone
    exact hinnermost ⟨hp, fun v hv hwithin => hnone ⟨v, hv, hwithin⟩⟩

section Laid

variable (laid : source.tree.Laid source.text)
include laid

/-- Below an innermost wait there is no other. -/
theorem reportAt?_eq_none_of_mem_descendants (hp : p ∈ innermostWaits source) {w : Place}
    (hw : w ∈ p.descendants) : reportAt? source w = none := by
  obtain ⟨hwait, hinnermost⟩ := List.mem_filter.mp hp
  by_contra hsome
  have hplace : w ∈ source.tree.places :=
    preorder_trans (mem_waits_iff.mp hwait).1 (preorder_eq p ▸ List.mem_cons_of_mem _ hw)
  have hmem : w ∈ waits source :=
    List.mem_filter.mpr ⟨hplace, Option.isSome_iff_ne_none.mpr hsome⟩
  obtain ⟨hlater, hstop⟩ := within_of_mem_descendants laid hmem hwait hw
  exact of_decide_eq_true hinnermost w hmem ⟨Nat.le_of_lt hlater, hstop, .inl hlater⟩

/-- No wait is in what an innermost wait has become. -/
theorem Rewritten.reportAt?_eq_none_of_replaced (h : Rewritten source source' p p')
    (hp : p ∈ innermostWaits source) : ∀ w ∈ p'.preorder, reportAt? source' w = none := by
  cases h with
  | kept hkept _ _ _ => exact absurd hp hkept
  | @replaced _ _ q v a caller arguments _ _ hv ha hwait hcall harguments =>
    obtain ⟨_, _, _, hname⟩ := waiting_variants v hv a ha
    refine hcall.reportAt?_eq_none hname fun c' hc' => ?_
    obtain ⟨c, hc, hrewritten⟩ := exists_of_forall₂ harguments hc'
    obtain ⟨hqcall, list, hlist, hkind, hclist⟩ := exists_of_mem_callArguments hc
    obtain ⟨function', list', hchildren', _, hkind', _, hparts', _⟩ := hcall.spelled
    have hclist' : c' ∈ list'.children := mem_children_of_mem_parts (hparts' ▸ hc')
    have hlist' : list' ∈ p'.children := by
      rw [hchildren']
      simp
    have howner : c'.owner?.any (·.isAwait) = c.owner?.any (·.isAwait) := by
      rw [any_owner?_of_argument hqcall hlist hkind hclist,
        any_owner?_of_argument (beq_iff_eq.mpr hcall.kind_eq) hlist' hkind' hclist']
    intro w' hw'
    refine hrewritten.reportAt?_eq_none howner (fun w hw => ?_) hw'
    -- the arguments of the query are below the wait
    have hq := mem_descendants_of_waitsFor hwait.waits
    have hbelow : w ∈ list.preorder := preorder_trans (mem_preorder_of_mem_children hclist) hw
    have hqpreorder : w ∈ q.preorder := preorder_trans (mem_preorder_of_mem_children hlist) hbelow
    obtain ⟨child, hchild, hqchild⟩ := List.mem_flatMap.mp hq
    exact reportAt?_eq_none_of_mem_descendants laid hp
      (List.mem_flatMap.mpr ⟨child, hchild, preorder_trans hqchild hqpreorder⟩)

/-- The waits at and below a place are those that were there before, without the innermost ones. -/
theorem Rewritten.filter_waits (h : Rewritten source source' p p') (hp : p ∈ source.tree.places)
    (hpath : p'.path = p.path) (howner : p'.owner?.any (·.isAwait) = p.owner?.any (·.isAwait)) :
    (p'.preorder.filter fun w => (reportAt? source' w).isSome).map path =
      (p.preorder.filter fun w =>
        (reportAt? source w).isSome && decide (∃ v ∈ waits source, LiesWithin v w)).map path := by
  induction p using children_induction generalizing p' with
  | step p ih =>
    by_cases hinnermost : p ∈ innermostWaits source
    · have hnone := h.reportAt?_eq_none_of_replaced laid hinnermost
      have hleft : (p'.preorder.filter fun w => (reportAt? source' w).isSome) = [] :=
        List.filter_eq_nil_iff.mpr fun w hw => by simp [hnone w hw]
      have hright : (p.preorder.filter fun w =>
          (reportAt? source w).isSome && decide (∃ v ∈ waits source, LiesWithin v w)) = [] := by
        refine List.filter_eq_nil_iff.mpr fun w hw => ?_
        rw [preorder_eq] at hw
        rcases List.mem_cons.mp hw with rfl | hw
        · have := of_decide_eq_true (List.mem_filter.mp hinnermost).2
          simpa using fun _ => this
        · simp [reportAt?_eq_none_of_mem_descendants laid hinnermost hw]
      rw [hleft, hright]
    · have hhead : (reportAt? source' p').isSome =
          ((reportAt? source p).isSome && decide (∃ v ∈ waits source, LiesWithin v p)) := by
        rw [h.isSome_reportAt? hinnermost howner]
        cases hsome : (reportAt? source p).isSome with
        | false => rfl
        | true =>
          have hwait : p ∈ waits source := List.mem_filter.mpr ⟨hp, hsome⟩
          exact (List.mem_filter.mp (mem_outerWaits_iff.mpr ⟨hwait, hinnermost⟩)).2.symm
      have hbelow := flatMap_eq_of_forall₂ (forall₂_path (h.children hinnermost) hpath)
        fun c c' hcc => ih c hcc.2.1 hcc.1 (mem_places_of_mem_children hp hcc.2.1) hcc.2.2.2
          (h.any_owner?_children howner hcc.2.1 hcc.2.2.1)
      rw [← List.map_flatMap, ← List.map_flatMap, ← List.filter_flatMap, ← List.filter_flatMap]
        at hbelow
      rw [preorder_eq, preorder_eq, List.filter_cons, List.filter_cons, hhead]
      split_ifs
      · rw [List.map_cons, List.map_cons, hpath]
        exact congrArg _ hbelow.symm
      · exact hbelow.symm

end Laid

end QueryLint.Lint
