import QueryLint.Proofs.Code.Owners
import QueryLint.Query.WaitedQuery

/-!
# What a call waits for

The plain form of a wait, said by the expressions it is made of: a call of a function that waits,
whose only argument is an arrow function without parameters, whose body is the call of a query that
answers at once. The search for the form finds exactly this, and the name of the query always has a
waiting form to put in its place.
-/
namespace QueryLint.Query

open QueryLint.Code QueryLint.Code.Place

/-- The variants that answer at once, each with the one that waits for the same. -/
def waitingVariants : List (String × String) :=
  [("getBy", "findBy"), ("getAllBy", "findAllBy"), ("queryBy", "findBy"),
   ("queryAllBy", "findAllBy")]

/-- `q` calls the query `method` that answers at once: by its name alone, or as a member of an
object with a name. -/
inductive CallsAtOnce (source : Source) (q : Place) (method : String) : Option String → Prop where
  | bare {callee : Place} (hcallee : q.callee? = some callee)
      (hmethod : source.nameOf? callee = some method) (hsync : isSync method) :
      CallsAtOnce source q method none
  | member {callee object : Place} {caller : String} (hcallee : q.callee? = some callee)
      (hobject : callee.object? = some object) (hcaller : source.nameOf? object = some caller)
      (hmethod : source.propertyName? callee = some method) (hsync : isSync method) :
      CallsAtOnce source q method (some caller)

/-- `wait` calls a function that waits, with nothing but an arrow function without parameters that
calls `q`. -/
structure WaitsFor (source : Source) (wait q : Place) : Prop where
  waiting : ∃ callee name, wait.callee? = some callee ∧ source.nameOf? callee = some name ∧
    name ∈ waitNames
  callback : ∃ argument callback body, wait.callArguments = [argument] ∧
    argument.unwrap = some callback ∧ callback.isArrow ∧ callback.parameters = [] ∧
    callback.body? = some body ∧ body.unwrap = some q ∧ q.isCall

/-- The text of a call by a name, of an object if there is one. -/
def callText (caller : Option String) (name : String) (arguments : List String) : String :=
  (match caller with
    | some object => object ++ "."
    | none => "") ++ name ++ "(" ++ ", ".intercalate arguments ++ ")"

theorem waiting_variants : ∀ v ∈ waitingVariants, ∀ a ∈ accessors,
    waitingVariant (v.1 ++ a) = v.2 ∧ accessor? (v.1 ++ a) = some a ∧ isAsync (v.2 ++ a) ∧
      v.2 ++ a ∉ waitNames := by
  decide +kernel

theorem isSync_iff {method : String} :
    isSync method ↔ ∃ v ∈ waitingVariants, ∃ a ∈ accessors, method = v.1 ++ a := by
  have hvariants : syncVariants = waitingVariants.map (·.1) := rfl
  rw [isSync, combinations, List.contains_iff_mem, hvariants, List.flatMap_map, List.mem_flatMap]
  simp only [List.mem_map, eq_comm]

variable {source : Source}

theorem nameOf?_eq_some_iff {p : Place} {name : String} :
    source.nameOf? p = some name ↔ p.isIdentifier ∧ source.textOf p = name := by
  rw [Source.nameOf?]
  by_cases h : p.isIdentifier <;> simp [h]

theorem not_isMember_of_nameOf? {p : Place} {name : String} (h : source.nameOf? p = some name) :
    ¬ p.isMember := by
  have hk : p.isIdentifier := (nameOf?_eq_some_iff.mp h).1
  have hkinds : ∀ k ∈ identifierKinds, ¬ (k == Kind.memberExpression) := by decide
  exact hkinds p.kind (List.contains_iff_mem.mp hk)

theorem isMember_of_object? {p object : Place} (h : p.object? = some object) : p.isMember := by
  unfold object? at h
  split_ifs at h with hk
  exact hk

theorem syncQuery?_eq_some_iff {q : Place} {query : WaitedQuery} :
    syncQuery? source q = some query ↔
      CallsAtOnce source q query.method query.caller ∧ query.arguments = q.callArguments := by
  obtain ⟨method, caller, arguments⟩ := query
  constructor
  · intro h
    simp only [syncQuery?, Option.bind_eq_bind] at h
    obtain ⟨callee, hcallee, h⟩ := Option.bind_eq_some_iff.mp h
    by_cases hmember : callee.isMember
    · simp only [hmember, if_true, Option.bind_eq_some_iff, Option.pure_def, Option.bind_some] at h
      obtain ⟨object, hobject, caller, hcaller, method, hmethod, h⟩ := h
      split_ifs at h with hsync
      cases h
      exact ⟨.member hcallee hobject hcaller hmethod hsync, rfl⟩
    · simp only [hmember, if_false, Option.bind_eq_some_iff, Option.pure_def, Option.bind_some,
        Bool.false_eq_true] at h
      obtain ⟨method, hmethod, h⟩ := h
      split_ifs at h with hsync
      cases h
      exact ⟨.bare hcallee hmethod hsync, rfl⟩
  · rintro ⟨hcalls, harguments⟩
    dsimp only at hcalls harguments
    subst harguments
    cases hcalls with
    | bare hcallee hmethod hsync =>
      simp [syncQuery?, hcallee, not_isMember_of_nameOf? hmethod, hmethod, hsync]
    | member hcallee hobject hcaller hmethod hsync =>
      simp [syncQuery?, hcallee, isMember_of_object? hobject, hobject, hcaller, hmethod, hsync]

/-- The search finds the plain form of a wait, and nothing else. -/
theorem waitedQuery?_eq_some_iff {wait : Place} {query : WaitedQuery} :
    waitedQuery? source wait = some query ↔
      ∃ q, WaitsFor source wait q ∧ CallsAtOnce source q query.method query.caller ∧
        query.arguments = q.callArguments := by
  simp only [← syncQuery?_eq_some_iff]
  constructor
  · intro h
    simp only [waitedQuery?, Option.bind_eq_bind, Option.bind_eq_some_iff] at h
    obtain ⟨name, ⟨callee, hcallee, hname⟩, h⟩ := h
    split_ifs at h with hwaits
    split at h
    · next argument hargument =>
      obtain ⟨callback, hcallback, h⟩ := Option.bind_eq_some_iff.mp h
      split_ifs at h with harrow
      obtain ⟨q, hq, h⟩ := Option.bind_eq_some_iff.mp h
      obtain ⟨body, hbody, hunwrap⟩ := Option.bind_eq_some_iff.mp hq
      split_ifs at h with hcall
      rw [Bool.and_eq_true, List.isEmpty_iff] at harrow
      exact ⟨q, ⟨⟨callee, name, hcallee, hname, List.contains_iff_mem.mp hwaits⟩,
        ⟨argument, callback, body, hargument, hcallback, harrow.1, harrow.2, hbody, hunwrap,
          hcall⟩⟩, h⟩
    · cases h
  · rintro ⟨q, ⟨⟨callee, name, hcallee, hname, hwaits⟩, ⟨argument, callback, body, hargument,
      hcallback, harrow, hparameters, hbody, hunwrap, hcall⟩⟩, hquery⟩
    simp [waitedQuery?, hcallee, hname, hwaits, hargument, hcallback, harrow, hparameters, hbody,
      hunwrap, hcall, hquery]

theorem mem_descendants_of_waitsFor {wait q : Place} (h : WaitsFor source wait q) :
    q ∈ wait.descendants := by
  obtain ⟨argument, callback, body, harguments, hcallback, harrow, _, hbody, hq, _⟩ := h.callback
  obtain ⟨_, list, hlist, _, hargument⟩ :=
    exists_of_mem_callArguments (harguments ▸ List.mem_singleton_self argument)
  have hchild : body ∈ callback.children := by
    rw [Place.body?, if_pos harrow] at hbody
    exact mem_children_of_childAs hbody
  have hbelow : q ∈ argument.preorder :=
    preorder_trans (mem_preorder_of_unwrap hcallback)
      (preorder_trans (mem_preorder_of_mem_children hchild) (mem_preorder_of_unwrap hq))
  exact List.mem_flatMap.mpr
    ⟨list, hlist, preorder_trans (mem_preorder_of_mem_children hargument) hbelow⟩

theorem isSync_of_callsAtOnce {q : Place} {method : String} {caller : Option String}
    (h : CallsAtOnce source q method caller) : isSync method := by
  cases h with
  | bare _ _ hsync => exact hsync
  | member _ _ _ _ hsync => exact hsync

/-- The query that is waited for has a waiting form, and this is what is put in place of the
wait. -/
theorem exists_replacement {wait : Place} {query : WaitedQuery}
    (h : waitedQuery? source wait = some query) :
    ∃ v ∈ waitingVariants, ∃ a ∈ accessors, query.method = v.1 ++ a ∧ query.variant = v.2 ∧
      accessor? query.method = some a ∧ isAsync (v.2 ++ a) ∧ v.2 ++ a ∉ waitNames ∧
      query.replacement source =
        some (callText query.caller (v.2 ++ a) (query.arguments.map source.textOf)) := by
  obtain ⟨q, _, hcalls, _⟩ := waitedQuery?_eq_some_iff.mp h
  obtain ⟨v, hv, a, ha, hmethod⟩ := isSync_iff.mp (isSync_of_callsAtOnce hcalls)
  obtain ⟨hvariant, haccessor, hasync, hwait⟩ := waiting_variants v hv a ha
  rw [← hmethod] at hvariant haccessor
  refine ⟨v, hv, a, ha, hmethod, hvariant, haccessor, hasync, hwait, ?_⟩
  rw [WaitedQuery.replacement, haccessor, Option.map_some, WaitedQuery.variant, hvariant]
  cases query.caller <;> simp [callText, String.append_assoc]

end QueryLint.Query
