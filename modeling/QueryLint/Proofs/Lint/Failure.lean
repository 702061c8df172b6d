import QueryLint.Proofs.Lint.Independence
import QueryLint.Proofs.Project.Outcomes
import QueryLint.Proofs.Rule.Brackets

/-!
# When linting fails

A rule looks for the parts of a tree that may not be there, and takes apart the names of queries only
after it has checked them. So a walk through a tree fails on nothing that the tree looks like but its
depth: where one of the rules takes apart a pattern that is nested deeper than calls can stand inside each
other, it gives up. Apart from that, linting fails at an id that belongs to no rule, where of several such
ids the first counts, and at a finding in a source whose name is no UTF-8. Nor can a run over a project
note any other failure of a rule. What is found within limits is what is found without.
-/
namespace QueryLint.Lint

open QueryLint.Code QueryLint.Code.ListenerTable QueryLint.Rule QueryLint.Text QueryLint.Files
open QueryLint.Project

/-- The first of the ids that are asked for that belongs to no rule. -/
def firstUnknown? (rules : Option (List String)) : Option String :=
  rules.bind fun ids => ids.find? (!(registered.map (·.info.id)).contains ·)

theorem firstUnknown?_eq_none {rules : Option (List String)}
    (h : ∀ ids, rules = some ids → ∀ id ∈ ids, id ∈ registered.map (·.info.id)) :
    firstUnknown? rules = none := by
  cases rules with
  | none => rfl
  | some ids =>
    rw [firstUnknown?, Option.bind_some, List.find?_eq_none]
    intro id hid
    simpa using h ids rfl id hid

theorem isSome_ofId?_iff {id : String} :
    (Rule.ofId? id).isSome ↔ id ∈ registered.map (·.info.id) := by
  simp [Rule.ofId?, List.find?_isSome]

theorem mem_registered_of_mem_enabledRules {config : Config} {id : String}
    (h : id ∈ config.enabledRules) : id ∈ registered.map (·.info.id) := by
  have hall : id ∈ sortedSet (registered.map (·.info.id)) := (List.mem_filter.mp h).1
  rwa [sortedSet, sortTexts, List.mem_mergeSort, List.mem_eraseDups] at hall

section Choice

variable {config : Config} {asked : Bool} {ids : List String}

theorem chooseFrom_cons (id : String) :
    chooseFrom config asked (id :: ids) =
      match Rule.ofId? id with
      | none => .error (.unknownRule id)
      | some rule =>
        let given := config.severityFor id
        let severity := if given = .off ∧ asked then rule.info.recommended else given
        (chooseFrom config asked ids).map fun rest =>
          if severity = .off then rest else ⟨rule, severity⟩ :: rest := by
  rw [chooseFrom]
  cases Rule.ofId? id with
  | none => rfl
  | some rule => cases chooseFrom config asked ids <;> rfl

/-- Choosing rules fails at the first id that belongs to none. -/
theorem chooseFrom_eq_error_iff {e : LintError} :
    chooseFrom config asked ids = .error e ↔
      ∃ id, firstUnknown? (some ids) = some id ∧ e = .unknownRule id := by
  rw [firstUnknown?, Option.bind_some]
  induction ids with
  | nil => simp [chooseFrom]
  | cons id ids ih =>
    have hknown := @isSome_ofId?_iff id
    rw [chooseFrom_cons, List.find?_cons]
    cases hrule : Rule.ofId? id with
    | none =>
      rw [hrule] at hknown
      have hmem : (registered.map (·.info.id)).contains id = false := by
        simpa using mt hknown.mpr Bool.false_ne_true
      simp only [hmem, Bool.not_false, Except.error.injEq, Option.some.injEq]
      constructor
      · rintro rfl
        exact ⟨id, rfl, rfl⟩
      · rintro ⟨_, rfl, rfl⟩
        rfl
    | some rule =>
      rw [hrule] at hknown
      have hmem : (registered.map (·.info.id)).contains id = true := by
        simpa using hknown.mp rfl
      simp only [hmem, Bool.not_true]
      rw [← ih]
      cases chooseFrom config asked ids <;> simp [Except.map]

/-- A rule that is chosen is one of those that are registered, and is not off. -/
theorem registered_and_on_of_chooseFrom {chosen : List Chosen}
    (h : chooseFrom config asked ids = .ok chosen) :
    ∀ c ∈ chosen, c.rule ∈ registered ∧ c.severity ≠ .off := by
  induction ids generalizing chosen with
  | nil =>
    cases h
    exact List.forall_mem_nil _
  | cons id ids ih =>
    rw [chooseFrom_cons] at h
    cases hrule : Rule.ofId? id with
    | none => simp [hrule] at h
    | some rule =>
      cases hrest : chooseFrom config asked ids with
      | error e => simp [hrule, hrest, Except.map] at h
      | ok rest =>
        simp only [hrule, hrest, Except.map, Except.ok.injEq] at h
        generalize (if config.severityFor id = .off ∧ asked = true then rule.info.recommended
          else config.severityFor id) = severity at h
        subst h
        split_ifs with hoff
        · exact ih hrest
        · exact List.forall_mem_cons.mpr ⟨⟨(mem_registered_of_ofId? hrule).1, hoff⟩, ih hrest⟩

theorem choose_eq_error_iff {rules : Option (List String)} {e : LintError} :
    choose config rules = .error e ↔ ∃ id, firstUnknown? rules = some id ∧ e = .unknownRule id := by
  cases rules with
  | some ids => exact chooseFrom_eq_error_iff
  | none =>
    have hknown : firstUnknown? (some config.enabledRules) = none := by
      rw [firstUnknown?, Option.bind_some, List.find?_eq_none]
      intro id hid
      simpa using mem_registered_of_mem_enabledRules hid
    rw [choose, chooseFrom_eq_error_iff, hknown]
    simp [firstUnknown?]

theorem registered_and_on_of_choose {rules : Option (List String)} {chosen : List Chosen}
    (h : choose config rules = .ok chosen) :
    ∀ c ∈ chosen, c.rule ∈ registered ∧ c.severity ≠ .off := by
  cases rules <;> exact registered_and_on_of_chooseFrom h

end Choice

/-- Once its rules are chosen, a run comes to the findings of each of them, arranged. -/
theorem lintSource_eq (source : Source) (config : Config) (rules : Option (List String)) :
    lintSource source config rules =
      (choose config rules).map fun chosen => arrange (chosen.flatMap (findingsOf source)) := by
  cases hchosen : choose config rules with
  | error e =>
    rw [lintSource, run, hchosen]
    rfl
  | ok chosen =>
    have hsolo : List.Forall₂ (fun c own => soloWalk source c.rule = .ok own) chosen
        (chosen.map fun c => soloNotes source c.rule) := by
      rw [List.forall₂_map_right_iff, List.forall₂_same]
      exact fun c hc => soloWalk_registered source (registered_and_on_of_choose hchosen c hc).1
    rw [lintSource_of_soloWalk hchosen hsolo, collect_soloNotes]
    rfl

/-- The ids of the rules that are to run: those that are asked for, or else those that are enabled. -/
def wanted (config : Config) (rules : Option (List String)) : List String :=
  rules.getD config.enabledRules

/-- Why linting a source fails within limits. -/
inductive Fails (limits : Limits) (source : Source) (config : Config) (rules : Option (List String)) :
    LintError → Prop where
  /-- An id that is asked for belongs to no rule. -/
  | unknown {id : String} (first : firstUnknown? rules = some id) :
    Fails limits source config rules (.unknownRule id)
  /-- The rule for promises runs, and gives up. -/
  | tooDeep (known : firstUnknown? rules = none)
    (runs : AwaitQuery.info.id ∈ wanted config rules) (givesUp : AwaitQuery.GivesUp limits source) :
    Fails limits source config rules (.failure (.tooDeep ⟨⟩))
  /-- There is a finding, and the name of its source cannot be written behind the name of its rule. -/
  | stray {chosen : List Chosen} {first : Finding} {what : StrayBytes}
    (known : choose config rules = .ok chosen)
    (comesToEnd : ¬ (AwaitQuery.info.id ∈ wanted config rules ∧ AwaitQuery.GivesUp limits source))
    (found : (chosen.flatMap (findingsOf source)).head? = some first)
    (stray : limits.strayBytes? (first.ruleId.length + 1) source.path = some what) :
    Fails limits source config rules (.stray what)

section Within

variable {limits : Limits} {source : Source} {config : Config} {rules : Option (List String)}
  {chosen : List Chosen}

theorem firstUnknown?_of_choose (h : choose config rules = .ok chosen) : firstUnknown? rules = none := by
  cases hunknown : firstUnknown? rules with
  | none => rfl
  | some id => cases h.symm.trans (choose_eq_error_iff.mpr ⟨id, hunknown, rfl⟩)

theorem map_id_requested? {ids : List String} (h : ∀ id ∈ ids, id ∈ registered.map (·.info.id)) :
    (ids.filterMap (requested? config)).map (·.rule.info.id) = ids := by
  induction ids with
  | nil => rfl
  | cons id ids ih =>
    obtain ⟨rule, hrule⟩ := Option.isSome_iff_exists.mp
      (isSome_ofId?_iff.mpr (h id List.mem_cons_self))
    have hid := (mem_registered_of_ofId? hrule).2
    rw [List.filterMap_cons_some (by rw [requested?, hrule, Option.map_some]), List.map_cons, hid,
      ih fun id hid => h id (List.mem_cons_of_mem _ hid)]

/-- All rules that are wanted are chosen, in their order. -/
theorem map_id_of_choose (h : choose config rules = .ok chosen) :
    chosen.map (·.rule.info.id) = wanted config rules := by
  have hasked : choose config (some (wanted config rules)) = .ok chosen := by
    cases rules with
    | none => exact (choose_none config).symm.trans h
    | some ids => exact h
  have hknown : ∀ id ∈ wanted config rules, id ∈ registered.map (·.info.id) := by
    have hnone := List.find?_eq_none.mp (firstUnknown?_of_choose hasked)
    exact fun id hid => by simpa using hnone id hid
  cases (choose_requested config hknown).symm.trans hasked
  exact map_id_requested? hknown

theorem exists_mem_choose_iff (h : choose config rules = .ok chosen) {p : Prop} :
    (∃ c ∈ chosen, c.rule.info.id = AwaitQuery.info.id ∧ p) ↔
      AwaitQuery.info.id ∈ wanted config rules ∧ p := by
  rw [← map_id_of_choose h, List.mem_map]
  constructor
  · rintro ⟨c, hc, hid, hp⟩
    exact ⟨⟨c, hc, hid⟩, hp⟩
  · rintro ⟨⟨c, hc, hid⟩, hp⟩
    exact ⟨c, hc, hid, hp⟩

/-- A walk of the rules that are wanted fails exactly if the rule for promises is one of them and gives
up. -/
theorem failsIff_walk_choose (limits : Limits) (source : Source)
    (h : choose config rules = .ok chosen) :
    FailsIff (walk limits source chosen)
      (AwaitQuery.info.id ∈ wanted config rules ∧ AwaitQuery.GivesUp limits source) (.tooDeep ⟨⟩)
      (chosen.map fun c => soloNotes source c.rule) := by
  have hwalk := failsIff_walk
    (fun rule => rule.info.id = AwaitQuery.info.id ∧ AwaitQuery.GivesUp limits source)
    (soloNotes source) fun c hc =>
      failsIff_soloWalk_registered limits source (registered_and_on_of_choose h c hc).1
  exact hwalk.congr (exists_mem_choose_iff h).symm

theorem settle_eq_error_iff {findings : List Finding} {e : LintError} :
    settle limits source findings = .error e ↔
      ∃ f what, findings.head? = some f ∧
        limits.strayBytes? (f.ruleId.length + 1) source.path = some what ∧ e = .stray what := by
  rw [settle]
  cases findings.head? with
  | none => simp
  | some f =>
    cases hstray : limits.strayBytes? (f.ruleId.length + 1) source.path <;> simp [hstray, eq_comm]

theorem eq_arrange_of_settle {findings arranged : List Finding}
    (h : settle limits source findings = .ok arranged) : arranged = arrange findings := by
  unfold settle at h
  split at h
  · cases h
  · exact (Except.ok.inj h).symm

/-- Linting fails for one of three reasons, and for no other. -/
theorem lintSource_eq_error_iff {e : LintError} :
    lintSource source config rules limits = .error e ↔ Fails limits source config rules e := by
  cases hchosen : choose config rules with
  | error wrong =>
    obtain ⟨id, hid, rfl⟩ := choose_eq_error_iff.mp hchosen
    have hlint : lintSource source config rules limits = .error (.unknownRule id) := by
      rw [lintSource, run, hchosen]
      rfl
    rw [hlint]
    constructor
    · rintro ⟨⟩
      exact .unknown hid
    · rintro (hfirst | ⟨hknown, -, -⟩ | ⟨hknown, -, -, -⟩)
      · cases hid.symm.trans hfirst
        rfl
      · cases hid.symm.trans hknown
      · cases hchosen.symm.trans hknown
  | ok chosen =>
    have hknown := firstUnknown?_of_choose hchosen
    have hwalk := failsIff_walk_choose limits source hchosen
    rw [lintSource_of_choose hchosen]
    by_cases hdeep : AwaitQuery.info.id ∈ wanted config rules ∧ AwaitQuery.GivesUp limits source
    · rw [hwalk.error hdeep]
      constructor
      · rintro ⟨⟩
        exact .tooDeep hknown hdeep.1 hdeep.2
      · rintro (hfirst | _ | ⟨-, hends, -, -⟩)
        · cases hknown.symm.trans hfirst
        · rfl
        · exact absurd hdeep hends
    · rw [hwalk.ok hdeep]
      change settle limits source (collect source chosen _) = .error e ↔ _
      rw [collect_soloNotes, settle_eq_error_iff]
      constructor
      · rintro ⟨f, what, hfound, hstray, rfl⟩
        exact .stray hchosen hdeep hfound hstray
      · rintro (hfirst | ⟨-, hruns, hgivesUp⟩ | ⟨hknown', -, hfound, hstray⟩)
        · cases hknown.symm.trans hfirst
        · exact absurd ⟨hruns, hgivesUp⟩ hdeep
        · cases hchosen.symm.trans hknown'
          exact ⟨_, _, hfound, hstray, rfl⟩

/-- What is found within limits is what is found without. -/
theorem lintSource_of_within {findings : List Finding}
    (h : lintSource source config rules limits = .ok findings) :
    lintSource source config rules = .ok findings := by
  cases hchosen : choose config rules with
  | error wrong =>
    rw [lintSource, run, hchosen] at h
    cases h
  | ok chosen =>
    have hwalk := failsIff_walk_choose limits source hchosen
    rw [lintSource_of_choose hchosen] at h
    by_cases hdeep : AwaitQuery.info.id ∈ wanted config rules ∧ AwaitQuery.GivesUp limits source
    · rw [hwalk.error hdeep] at h
      cases h
    · rw [hwalk.ok hdeep] at h
      change settle limits source (collect source chosen _) = .ok findings at h
      rw [lintSource_eq, hchosen, eq_arrange_of_settle h, collect_soloNotes]
      rfl

/-- Rules that exist come to findings, if the source is not too deep and its name is a text. -/
theorem exists_lintSource_within_eq_ok (known : firstUnknown? rules = none)
    (comesToEnd : ¬ (AwaitQuery.info.id ∈ wanted config rules ∧ AwaitQuery.GivesUp limits source))
    (isText : ∀ c ∈ source.path.toList, limits.strayByte? c = none) :
    ∃ findings, lintSource source config rules limits = .ok findings := by
  cases hlint : lintSource source config rules limits with
  | ok findings => exact ⟨findings, rfl⟩
  | error e =>
    rcases lintSource_eq_error_iff.mp hlint with hfirst | ⟨-, hruns, hgivesUp⟩ | ⟨-, -, -, hstray⟩
    · cases known.symm.trans hfirst
    · exact absurd ⟨hruns, hgivesUp⟩ comesToEnd
    · cases (Limits.strayBytes?_eq_none_iff.mpr isText).symm.trans hstray

theorem exists_lintSource_eq_ok (known : firstUnknown? rules = none) :
    ∃ findings, lintSource source config rules = .ok findings :=
  exists_lintSource_within_eq_ok known
    (fun h => AwaitQuery.not_givesUp_unlimited source h.2) fun _ _ => rfl

end Within

/-- Whether no node of a tree is of the kind that stands for the end of a walk. -/
def IsOrdinary (tree : Node) : Prop := ∀ p ∈ tree.places, p.kind ≠ programExit

instance (tree : Node) : Decidable (IsOrdinary tree) := inferInstanceAs (Decidable (∀ _ ∈ _, _))

/-- Whether a call hands a listener what it is registered for: a place of its kind, or nothing but the
end of the walk. -/
def SuitsListener (chosen : List Chosen) (call : (Nat × Listener) × Occasion) : Prop :=
  ∃ c key, chosen[call.1.1]? = some c ∧ (key, call.1.2) ∈ c.rule.listeners ∧
    match call.2 with
    | .visit p => p.kind = key ∧ key ≠ programExit
    | .finish => key = programExit

theorem mem_listenersFor_numbered {chosen : List Chosen} {i : Nat} {listener : Listener} {key : Kind}
    (h : (i, listener) ∈ (numbered chosen 0).flatMap (listenersFor · key)) :
    ∃ c, chosen[i]? = some c ∧ (key, listener) ∈ c.rule.listeners := by
  obtain ⟨registration, hregistration, hmem⟩ := List.mem_flatMap.mp h
  obtain ⟨⟨c, j⟩, hc, rfl⟩ := List.mem_map.mp hregistration
  rw [listenersFor_map, List.mem_map] at hmem
  obtain ⟨_, hmem, heq⟩ := hmem
  cases heq
  obtain ⟨⟨_, _⟩, hentry, rfl⟩ := List.mem_map.mp hmem
  obtain ⟨hin, hkey⟩ := List.mem_filter.mp hentry
  cases of_decide_eq_true hkey
  exact ⟨c, List.mem_zipIdx_iff_getElem?.mp hc, hin⟩

/-- No listener is handed anything but what it is registered for. -/
theorem suitsListener_of_mem_calls {tree : Node} (hkinds : IsOrdinary tree) {chosen : List Chosen} :
    ∀ call ∈ (listeners chosen).calls tree, SuitsListener chosen call := by
  have hcalls : (listeners chosen).calls tree =
      tree.places.flatMap (fun p =>
        ((numbered chosen 0).flatMap (listenersFor · p.kind)).map (·, .visit p)) ++
        ((numbered chosen 0).flatMap (listenersFor · programExit)).map (·, .finish) :=
    calls_merge (numbered chosen 0) tree
  rintro ⟨⟨i, listener⟩, occasion⟩ hcall
  rw [hcalls, List.mem_append] at hcall
  rcases hcall with hvisit | hfinish
  · obtain ⟨p, hp, hmem⟩ := List.mem_flatMap.mp hvisit
    obtain ⟨_, hlistener, heq⟩ := List.mem_map.mp hmem
    cases heq
    obtain ⟨c, hc, hin⟩ := mem_listenersFor_numbered hlistener
    exact ⟨c, p.kind, hc, hin, rfl, hkinds p hp⟩
  · obtain ⟨_, hlistener, heq⟩ := List.mem_map.mp hfinish
    cases heq
    obtain ⟨c, hc, hin⟩ := mem_listenersFor_numbered hlistener
    exact ⟨c, programExit, hc, hin, rfl⟩

section Project

variable {limits : Limits} {config : Config} {rules : Option (List String)} {grammar : Grammar}
  {disk : Disk}

/-- What is noted of a rule that failed on a source is why linting the source fails. -/
theorem fails_of_sourceOutcome {source : Source} {e : Result.FileError}
    (h : sourceOutcome source config rules limits = .error e) (hkind : e.kind = Result.ruleError) :
    ∃ what, Fails limits source config rules what ∧ e.message = what.noted := by
  unfold sourceOutcome at h
  split at h
  · cases h
    exact absurd hkind (by decide : Result.parseError ≠ Result.ruleError)
  · cases hlint : lintSource source config rules limits with
    | ok findings =>
      rw [hlint] at h
      cases h
    | error what =>
      rw [hlint] at h
      cases h
      exact ⟨what, lintSource_eq_error_iff.mp hlint, rfl⟩

theorem fails_of_fileOutcome {base p : FilePath} {e : Result.FileError}
    (h : fileOutcome grammar disk base config rules p limits = .error e)
    (hkind : e.kind = Result.ruleError) :
    ∃ source what, loadSource grammar disk p (nameIn base p) = .ok source ∧
      Fails limits source config rules what ∧ e.message = what.noted := by
  unfold fileOutcome at h
  split at h
  · next source hload =>
    obtain ⟨what, hfails, hmessage⟩ := fails_of_sourceOutcome h hkind
    exact ⟨source, what, hload, hfails, hmessage⟩
  · cases h
    exact absurd hkind (by decide : Result.readError ≠ Result.ruleError)

/-- In the result of a run, a rule that failed on a file is a failure to lint what is in the file. -/
theorem fails_of_runTask {disk' : Disk} {task : Task} {result : LintResult}
    (h : (runTask grammar disk task limits).outcome = .ok (result, disk')) {e : Result.FileError}
    (he : e ∈ result.errors) (hkind : e.kind = Result.ruleError) :
    ∃ p source what,
      loadSource grammar disk p (nameIn (baseOf disk task.root) p) = .ok source ∧
        Fails limits source task.config task.rules what ∧ e.message = what.noted := by
  obtain ⟨files, settings, rfl⟩ := exists_of_runTask h
  obtain ⟨outcome, houtcome, herror⟩ := List.mem_filterMap.mp he
  obtain ⟨p, -, rfl⟩ := List.mem_map.mp houtcome
  exact ⟨p, fails_of_fileOutcome (FileOutcome.error?_eq_some_iff.mp herror) hkind⟩

end Project

/-- Whatever the tree, rules that are registered come to the same findings as without limits, unless the
rule for promises gives up or the name of the source is no text, and each listener is called with what it
is registered for. A tree with less levels than calls can stand inside each other is never given up on.
Linting fails for the reasons given and for no other, and these are all that the result of a run over a
project can say of a rule that failed. -/
theorem lintSource_total (limits : Limits) {source : Source} (hkinds : IsOrdinary source.tree)
    (config : Config) :
    (∀ ids : List String, (∀ id ∈ ids, id ∈ registered.map (·.info.id)) →
      ∃ chosen, choose config (some ids) = .ok chosen ∧
        ∀ call ∈ (listeners chosen).calls source.tree, SuitsListener chosen call) ∧
    (∀ rules, (∀ ids, rules = some ids → ∀ id ∈ ids, id ∈ registered.map (·.info.id)) →
      ¬ (AwaitQuery.info.id ∈ wanted config rules ∧ AwaitQuery.GivesUp limits source) →
      (∀ c ∈ source.path.toList, limits.strayByte? c = none) →
      ∃ findings, lintSource source config rules limits = .ok findings) ∧
    ((∀ n, limits.depth = some n → ∀ p ∈ source.tree.places, p.depth + 1 < n) →
      ¬ AwaitQuery.GivesUp limits source) ∧
    (∀ rules findings, lintSource source config rules limits = .ok findings →
      lintSource source config rules = .ok findings) ∧
    (∀ rules e, lintSource source config rules limits = .error e ↔
      Fails limits source config rules e) ∧
    ∀ (grammar : Grammar) (disk disk' : Disk) (task : Task) (result : LintResult),
      (runTask grammar disk task limits).outcome = .ok (result, disk') →
      ∀ e ∈ result.errors, e.kind = Result.ruleError → ∃ p source what,
        loadSource grammar disk p (nameIn (baseOf disk task.root) p) = .ok source ∧
          Fails limits source task.config task.rules what ∧ e.message = what.noted := by
  refine ⟨fun ids hids => ?_, fun rules hids hends hname => ?_, AwaitQuery.not_givesUp_of_shallow,
    fun _ _ => lintSource_of_within, fun _ _ => lintSource_eq_error_iff,
    fun _ _ _ _ _ h e he => fails_of_runTask h he⟩
  · exact ⟨_, choose_requested config hids, suitsListener_of_mem_calls hkinds⟩
  · exact exists_lintSource_within_eq_ok (firstUnknown?_eq_none hids) hends hname

/-- A parameter in a thousand brackets is too much for the usual limits, though nothing else is wrong with
the source. -/
theorem lintSource_brackets :
    (AwaitQuery.bracketSource "a.test.js" 1000).hasErrors = false ∧
      lintSource (AwaitQuery.bracketSource "a.test.js" 1000) .default (some ["await-async-query"])
        .usual = .error (.failure (.tooDeep ⟨⟩)) ∧
      ∃ findings, lintSource (AwaitQuery.bracketSource "a.test.js" 1000) .default
        (some ["await-async-query"]) = .ok findings := by
  refine ⟨rfl, lintSource_eq_error_iff.mpr (.tooDeep (by decide) (by decide) ?_),
    exists_lintSource_eq_ok (by decide)⟩
  exact AwaitQuery.givesUp_bracketSource _ _ rfl (by decide)

/-- `await waitFor(() => ()); await (); findByText(` -/
def brokenWait : Source where
  path := "a.js"
  text := "await waitFor(() => ()); await (); findByText("
  language := .javascript
  tree :=
    .mk ⟨"program", 0, 46, true, true, false, none⟩ [
      .mk ⟨"ERROR", 0, 23, true, true, false, none⟩ [
        .named "await_expression" 0 23 none [
          .named "call_expression" 6 23 none [
            .named "identifier" 6 13 (some .function) [],
            .named "arguments" 13 23 (some .arguments) [
              .named "arrow_function" 14 22 none [
                .named "formal_parameters" 14 16 (some .parameters) [],
                .named "parenthesized_expression" 20 22 (some .body) []]]]]],
      .named "expression_statement" 25 34 none [
        .named "await_expression" 25 33 none [.named "parenthesized_expression" 31 33 none []]],
      .named "expression_statement" 35 46 none [
        .mk ⟨"call_expression", 35, 46, true, true, false, none⟩ [
          .named "identifier" 35 45 (some .function) [],
          .mk ⟨"arguments", 45, 46, true, true, false, some .arguments⟩ [
            .token "(" 45 46, .mk ⟨")", 46, 46, false, true, true, none⟩ []]]]]

/-- Both rules cope with `brokenWait`, where parentheses are empty and one is missing. -/
theorem lintSource_brokenWait :
    IsOrdinary brokenWait.tree ∧
      (∃ findings, lintSource brokenWait .default (some ["await-async-query", "prefer-find-by"])
        .usual = .ok findings) ∧
      lintSource brokenWait .default (some ["prefer-find-by", "no-such-rule"]) .usual =
        .error (.unknownRule "no-such-rule") := by
  have hkinds : IsOrdinary brokenWait.tree := by decide
  obtain ⟨_, hok, hshallow, _, herror, _⟩ := lintSource_total .usual hkinds .default
  have hends : ¬ AwaitQuery.GivesUp .usual brokenWait := by
    refine hshallow ?_
    rintro _ ⟨⟩
    decide
  refine ⟨hkinds, hok _ ?_ (fun h => hends h.2) fun _ _ => rfl,
    (herror _ _).mpr (.unknown (by decide))⟩
  rintro _ ⟨⟩
  decide

end QueryLint.Lint
