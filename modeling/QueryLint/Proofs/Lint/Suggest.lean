import QueryLint.Lint.Text
import QueryLint.Proofs.Code.Laid
import QueryLint.Proofs.Finding.Nesting
import QueryLint.Proofs.Lint.Independence
import QueryLint.Proofs.Rule.Registry

/-!
# Which suggestions are applied

Only waits come with suggestions, one each, and their edits cover calls. In the tree of a text without
syntax errors two calls are apart or one is inside the other, and the outer one begins first. So of
the edits, in whatever order their findings come, those of the innermost waits are applied.
-/
namespace QueryLint.Lint

open QueryLint.Code QueryLint.Code.Place QueryLint.Rule QueryLint.Rule.PreferFind QueryLint.Text
open QueryLint.Finding (Edit firstEdits)

/-- The edit that is suggested for a wait. -/
def waitEdit (source : Source) (wait : Place) : Edit :=
  ⟨wait.start, wait.stop, ((awaitedWait? source wait).bind (·.replacement source)).getD ""⟩

/-- Whether `v` lies strictly inside the range of `w`. -/
def LiesWithin (v w : Place) : Prop :=
  w.start ≤ v.start ∧ v.stop ≤ w.stop ∧ (w.start < v.start ∨ v.stop < w.stop)

instance (v w : Place) : Decidable (LiesWithin v w) := inferInstanceAs (Decidable (_ ∧ _))

/-- The reported waits without another inside. -/
def innermostWaits (source : Source) : List Place :=
  (waits source).filter fun w => ∀ v ∈ waits source, ¬ LiesWithin v w

/-- The reported waits with another inside. -/
def outerWaits (source : Source) : List Place :=
  (waits source).filter fun w => ∃ v ∈ waits source, LiesWithin v w

/-- All edits that some findings suggest. -/
def suggestedEdits (findings : List Finding) : List Edit :=
  (findings.flatMap (·.suggestions)).map (·.edit)

/-- The findings of all rules at their default severities, not yet in order. -/
def defaultFindings (source : Source) : List Finding :=
  registered.flatMap fun rule => findingsOf source ⟨rule, .warn⟩

/-- The findings about queries whose promise is not handled. -/
def unhandledFindings (source : Source) : List Finding :=
  (AwaitQuery.unhandledSites source).map fun site =>
    (AwaitQuery.siteReport source site).toFinding AwaitQuery.info .warn source

/-- The findings about waits. -/
def waitFindings (source : Source) : List Finding :=
  (waitReports source).map fun r => r.toFinding PreferFind.info .warn source

variable {source : Source}

theorem defaultFindings_eq (source : Source) :
    defaultFindings source = unhandledFindings source ++ waitFindings source := by
  have hunhandled : findingsOf source ⟨AwaitQuery.rule, .warn⟩ = unhandledFindings source := by
    rw [findingsOf, soloNotes, AwaitQuery.soloWalk_rule, unhandledFindings]
    simp only [List.map_map]
    rfl
  have hwaits : findingsOf source ⟨PreferFind.rule, .warn⟩ = waitFindings source := by
    rw [findingsOf, soloNotes, PreferFind.soloWalk_rule]
    rfl
  rw [defaultFindings, registered, List.flatMap_cons, List.flatMap_cons, List.flatMap_nil,
    List.append_nil, hunhandled, hwaits]

theorem severityFor_default {rule : Rule} (h : rule ∈ registered) :
    Config.default.severityFor rule.info.id = .warn := by
  have hseverities : Config.default.severities = Config.recommended := rfl
  rw [Config.severityFor, hseverities, Config.recommended, Registry.current_eq]
  simp only [registered, List.mem_cons, List.not_mem_nil, or_false] at h
  rcases h with rfl | rfl <;> decide

/-- All rules are enabled by default. -/
theorem enabledRules_default :
    Config.default.enabledRules = registered.map (·.info.id) := by
  rw [Config.enabledRules, Registry.current_eq, List.filter_eq_self]
  intro id hid
  obtain ⟨rule, hrule, rfl⟩ := List.mem_map.mp hid
  rw [severityFor_default hrule]
  rfl

theorem soloFindings_default (source : Source) {rule : Rule} (h : rule ∈ registered) :
    soloFindings source .default rule.info.id = findingsOf source ⟨rule, .warn⟩ := by
  have hid : Rule.ofId? rule.info.id = some rule := by
    simp only [registered, List.mem_cons, List.not_mem_nil, or_false] at h
    rcases h with rfl | rfl <;> rfl
  simp [soloFindings, requested?, hid, severityFor_default h]

theorem lintSource_default (source : Source) :
    lintSource source .default none = .ok (arrange (defaultFindings source)) := by
  have hids : ∀ id ∈ Config.default.enabledRules, id ∈ registered.map (·.info.id) := by
    intro id hid
    rwa [← enabledRules_default]
  have hsolo : (registered.map (·.info.id)).flatMap (soloFindings source .default) =
      defaultFindings source := by
    rw [List.flatMap_map, defaultFindings, List.flatMap_def, List.flatMap_def]
    exact congrArg List.flatten
      (List.map_congr_left fun rule hrule => soloFindings_default source hrule)
  rw [lintSource_none, lintSource_requested source .default hids, enabledRules_default, hsolo]

theorem suggestions_unhandledFindings (source : Source) :
    ∀ f ∈ unhandledFindings source, f.suggestions = [] := by
  intro f hf
  obtain ⟨_, _, rfl⟩ := List.mem_map.mp hf
  rfl

theorem suggestions_reportAt? {w : Place} {r : Report} (h : reportAt? source w = some r) :
    r.suggestions.map (·.edit) = [waitEdit source w] := by
  obtain ⟨query, hquery, rfl⟩ := Option.map_eq_some_iff.mp h
  rw [waitEdit, hquery]
  rfl

/-- The findings about waits carry one suggestion each, in the order of the tree. -/
theorem suggestions_waitFindings (source : Source) :
    (waitFindings source).map (fun f => f.suggestions.map (·.edit)) =
      (waits source).map fun w => [waitEdit source w] := by
  rw [waitFindings, List.map_map, ← map_place_waitReports, List.map_map]
  exact List.map_congr_left fun r hr => suggestions_reportAt? (reportAt?_of_mem_waitReports hr)

theorem suggestedEdits_defaultFindings (source : Source) :
    suggestedEdits (defaultFindings source) = (waits source).map (waitEdit source) := by
  have hawait : (unhandledFindings source).flatMap (·.suggestions) = [] :=
    List.flatMap_eq_nil_iff.mpr (suggestions_unhandledFindings source)
  have hprefer := congrArg List.flatten (suggestions_waitFindings source)
  rw [← List.flatMap_def, ← List.flatMap_def, ← List.map_flatMap, ← List.map_eq_flatMap] at hprefer
  rw [← hprefer, suggestedEdits, defaultFindings_eq, List.flatMap_append, hawait, List.nil_append]

/-- A run of all rules has the findings of each. -/
theorem map_withoutId_default (source : Source) :
    ((arrange (defaultFindings source)).map withoutId).Perm
      (unhandledFindings source ++ waitFindings source) := by
  have hids : (unhandledFindings source ++ waitFindings source).map withoutId =
      unhandledFindings source ++ waitFindings source := by
    rw [List.map_append, unhandledFindings, waitFindings, List.map_map, List.map_map]
    rfl
  rw [← hids, ← defaultFindings_eq]
  exact arrange_perm _

theorem length_suggestions_le {f : Finding} (hf : f ∈ arrange (defaultFindings source)) :
    f.suggestions.length ≤ 1 := by
  have hmem := (map_withoutId_default source).subset (List.mem_map_of_mem (f := withoutId) hf)
  have hsuggestions : (withoutId f).suggestions = f.suggestions := rfl
  rw [← hsuggestions]
  rcases List.mem_append.mp hmem with hunhandled | hwait
  · rw [suggestions_unhandledFindings source _ hunhandled]
    exact Nat.zero_le 1
  · have hedits := List.mem_map_of_mem (f := fun f : Finding => f.suggestions.map (·.edit)) hwait
    rw [suggestions_waitFindings] at hedits
    obtain ⟨w, _, hw⟩ := List.mem_map.mp hedits
    have hlength := congrArg List.length hw
    simp only [List.length_map, List.length_singleton] at hlength
    omega

theorem suggestedEdits_arrange_default (source : Source) :
    (suggestedEdits (arrange (defaultFindings source))).Perm
      ((waits source).map (waitEdit source)) := by
  have hids : suggestedEdits ((arrange (defaultFindings source)).map withoutId) =
      suggestedEdits (arrange (defaultFindings source)) := by
    rw [suggestedEdits, suggestedEdits, List.flatMap_map]
    rfl
  have hperm := map_withoutId_default source
  rw [← defaultFindings_eq] at hperm
  rw [← hids, ← suggestedEdits_defaultFindings]
  exact (hperm.flatMap_right _).map _

theorem firstEdits_eq {fs : List Finding} (h : ∀ f ∈ fs, f.suggestions.length ≤ 1) :
    firstEdits fs = suggestedEdits fs := by
  induction fs with
  | nil => rfl
  | cons f fs ih =>
    have hrest := ih fun g hg => h g (List.mem_cons_of_mem _ hg)
    have hone := h f List.mem_cons_self
    rw [firstEdits, suggestedEdits] at hrest
    rw [firstEdits, suggestedEdits, List.filterMap_cons, List.flatMap_cons, List.map_append, ← hrest]
    match hf : f.suggestions with
    | [] => simp
    | [s] => simp
    | s :: t :: rest =>
      rw [hf] at hone
      simp at hone

theorem called_of_mem_waits {w : Place} (h : w ∈ waits source) :
    ∃ callee, w.callee? = some callee ∧ callee.isIdentifier := by
  obtain ⟨_, q, method, caller, hwait⟩ := mem_waits_iff.mp h
  obtain ⟨callee, name, hcallee, hname, _⟩ := hwait.waits.waiting
  exact ⟨callee, hcallee, (Query.nameOf?_eq_some_iff.mp hname).1⟩

section Laid

variable (laid : source.tree.Laid source.text)
include laid

theorem start_lt_stop_of_mem_waits {w : Place} (h : w ∈ waits source) : w.start < w.stop := by
  obtain ⟨callee, hcallee, hname⟩ := called_of_mem_waits h
  exact start_lt_stop_of_callee? laid (mem_waits_iff.mp h).1 hcallee hname

/-- A wait below another begins later and lies inside its range. -/
theorem within_of_mem_descendants {v w : Place} (hv : v ∈ waits source) (hw : w ∈ waits source)
    (h : v ∈ w.descendants) : w.start < v.start ∧ v.stop ≤ w.stop := by
  have hplace := (mem_waits_iff.mp hw).1
  obtain ⟨callee, hcallee, hname⟩ := called_of_mem_waits hw
  obtain ⟨callee', hcallee', _⟩ := called_of_mem_waits hv
  have hlater := start_lt_of_mem_descendants laid hplace hcallee hname h
    (isCall_of_callee? hcallee') (start_lt_stop_of_mem_waits laid hv)
  have hinside := within_of_mem_preorder (nested_of_laid laid) hplace
    (preorder_eq w ▸ List.mem_cons_of_mem _ h)
  exact ⟨hlater, hinside.2⟩

/-- The calls of two waits are apart, or the second is inside the first. -/
theorem nested_waitEdits : Edit.Nested ((waits source).map (waitEdit source)) := by
  constructor
  · intro e he
    obtain ⟨w, hw, rfl⟩ := List.mem_map.mp he
    have hpos := start_lt_stop_of_mem_waits laid hw
    simp only [waitEdit]
    omega
  · have hplaces := (pairwise_places (nested_of_laid laid)).sublist (waits_sublist source)
    rw [List.pairwise_map]
    refine hplaces.imp_of_mem fun {a b} ha hb hab => ?_
    have hpos := start_lt_stop_of_mem_waits laid ha
    simp only [waitEdit]
    rcases hab with habove | hapart
    · have hbelow : b ∈ a.descendants :=
        (mem_descendants_iff (mem_waits_iff.mp ha).1).mpr ⟨(mem_waits_iff.mp hb).1, habove⟩
      have hinside := within_of_mem_descendants laid hb ha hbelow
      omega
    · omega

theorem boundary_of_mem_waitEdits {e : Edit} (he : e ∈ (waits source).map (waitEdit source)) :
    IsBoundary source.text e.start ∧ IsBoundary source.text e.stop := by
  obtain ⟨w, hw, rfl⟩ := List.mem_map.mp he
  exact laid.boundary w (mem_waits_iff.mp hw).1

theorem stop_le_of_mem_waitEdits {e : Edit} (he : e ∈ (waits source).map (waitEdit source)) :
    e.stop ≤ byteLength source.text := by
  obtain ⟨w, hw, rfl⟩ := List.mem_map.mp he
  have := le_of_isBoundary (laid.boundary w (mem_waits_iff.mp hw).1).2
  simp only [waitEdit]
  omega

end Laid

theorem innermost_map_waitEdit (source : Source) :
    Edit.innermost ((waits source).map (waitEdit source)) =
      (innermostWaits source).map (waitEdit source) := by
  have hencloses : ∀ v w,
      (waitEdit source w).encloses (waitEdit source v) = decide (LiesWithin v w) := by
    intro v w
    rw [Bool.eq_iff_iff, Edit.encloses_iff, decide_eq_true_eq, LiesWithin]
    simp only [waitEdit]
    omega
  rw [Edit.innermost, innermostWaits, List.filter_map]
  congr 1
  refine List.filter_congr fun w _ => ?_
  rw [Bool.eq_iff_iff, Function.comp, List.any_map]
  simp [hencloses]

/-- If there are waits, some of them have no other inside. -/
theorem innermostWaits_ne_nil (laid : source.tree.Laid source.text) (h : waits source ≠ []) :
    innermostWaits source ≠ [] := by
  obtain ⟨w, hw⟩ := List.exists_mem_of_ne_nil _ h
  obtain ⟨d, hd, _⟩ := Edit.exists_innermost (nested_waitEdits laid)
    (List.mem_map_of_mem (f := waitEdit source) hw)
  rw [innermost_map_waitEdit] at hd
  obtain ⟨v, hv, _⟩ := List.mem_map.mp hd
  exact List.ne_nil_of_mem hv

/-- Of the edits that are suggested by default, those of the innermost waits are applied. -/
theorem applyAll_default (laid : source.tree.Laid source.text) :
    ∃ outcome,
      Edit.applyAll source.text (firstEdits (arrange (defaultFindings source))) = .ok outcome ∧
      utf8 outcome.text =
        Edit.weave (utf8 source.text) 0 ((innermostWaits source).map (waitEdit source)) ∧
      outcome.applied = (innermostWaits source).length ∧
      outcome.applied + outcome.skipped = (waits source).length := by
  have hfirst := firstEdits_eq fun f hf => @length_suggestions_le source f hf
  have hperm : (firstEdits (arrange (defaultFindings source))).Perm
      ((waits source).map (waitEdit source)) := by
    rw [hfirst]
    exact suggestedEdits_arrange_default source
  have hnested := nested_waitEdits laid
  have hrange : ∀ e ∈ firstEdits (arrange (defaultFindings source)), 0 ≤ e.start ∧ e.start ≤ e.stop := by
    intro e he
    have := hnested.1 e (hperm.subset he)
    omega
  obtain ⟨outcome, hok, htext, happlied, htotal⟩ := Edit.applyAll_eq_selection hrange
    fun e he _ => boundary_of_mem_waitEdits laid (hperm.subset he)
  rw [Edit.selection_eq_innermost hnested (fun e he => stop_le_of_mem_waitEdits laid he) hperm,
    innermost_map_waitEdit] at htext happlied
  refine ⟨outcome, hok, htext, by simpa using happlied, ?_⟩
  rw [htotal, hperm.length_eq, List.length_map]

variable {grammar : Grammar} {text filename : String}

/-- A text whose language is known comes to its source, unless there is an error in it. -/
theorem parseClean_of_choose (grammar : Grammar) (text : String) {filename : String}
    {language : Language} (h : Language.choose none (.ofString filename) = .ok language) :
    parseClean grammar text filename =
      let source : Source := ⟨filename, text, language, grammar language text⟩
      if source.hasErrors then .error (.syntaxError filename source.firstErrorLine) else .ok source := by
  unfold parseClean Source.parse
  rw [h]

theorem parseClean_eq_ok (h : parseClean grammar text filename = .ok source) :
    ∃ language, Language.choose none (.ofString filename) = .ok language ∧
      source = ⟨filename, text, language, grammar language text⟩ ∧ source.hasErrors = false := by
  unfold parseClean Source.parse at h
  generalize Language.choose none (.ofString filename) = chosen at h ⊢
  cases chosen with
  | error e => cases h
  | ok language =>
    simp only at h
    split_ifs at h with herrors
    cases h
    exact ⟨language, rfl, rfl, Bool.eq_false_iff.mpr herrors⟩

theorem text_of_parseClean (h : parseClean grammar text filename = .ok source) :
    source.text = text := by
  obtain ⟨language, _, rfl, _⟩ := parseClean_eq_ok h
  rfl

theorem lintText_of_parseClean (h : parseClean grammar text filename = .ok source) (config : Config)
    (rules : Option (List String)) (limits : Limits) :
    lintText grammar text filename config rules limits =
      (lintSource source config rules limits).mapError .lint := by
  unfold lintText
  rw [h]
  simp only
  cases lintSource source config rules limits <;> rfl

theorem lintText_of_unclean {e : TextError} (h : parseClean grammar text filename = .error e)
    (config : Config) (rules : Option (List String)) (limits : Limits) :
    lintText grammar text filename config rules limits = .error e := by
  unfold lintText
  rw [h]

theorem lintText_default (h : parseClean grammar text filename = .ok source) :
    lintText grammar text filename .default none = .ok (arrange (defaultFindings source)) := by
  rw [lintText_of_parseClean h, lintSource_default]
  rfl

theorem suggest_of_applyAll (h : parseClean grammar text filename = .ok source)
    {outcome : Edit.Outcome}
    (hok : Edit.applyAll text (firstEdits (arrange (defaultFindings source))) = .ok outcome) :
    suggest grammar text filename none = .ok outcome := by
  unfold suggest
  simp only [lintText_default h, hok]

/-- In a text without syntax errors, the suggestions that are applied are those of the reported
waits without another inside, all at once. If there are waits, some suggestion is applied. -/
theorem suggest_innermost (hparse : parseClean grammar text filename = .ok source)
    (laid : source.tree.Laid text) :
    ∃ findings outcome, lintText grammar text filename .default none = .ok findings ∧
      (findings.map withoutId).Perm (unhandledFindings source ++ waitFindings source) ∧
      (suggestedEdits findings).Perm ((waits source).map (waitEdit source)) ∧
      suggest grammar text filename none = .ok outcome ∧
      utf8 outcome.text =
        Edit.weave (utf8 text) 0 ((innermostWaits source).map (waitEdit source)) ∧
      outcome.applied = (innermostWaits source).length ∧
      outcome.applied + outcome.skipped = (waits source).length ∧
      (waits source ≠ [] → 1 ≤ outcome.applied) ∧
      (outcome.applied = 0 → suggestedEdits findings = [] ∧ outcome.text = text) := by
  have htext := text_of_parseClean hparse
  rw [← htext] at laid
  obtain ⟨outcome, hok, hwoven, happlied, htotal⟩ := applyAll_default laid
  rw [htext] at hok
  have hsuggest := suggest_of_applyAll hparse hok
  have hperm := suggestedEdits_arrange_default source
  have hsome : waits source ≠ [] → 1 ≤ outcome.applied := by
    intro hne
    rw [happlied]
    exact List.length_pos_iff.mpr (innermostWaits_ne_nil laid hne)
  rw [htext] at hwoven
  refine ⟨_, outcome, lintText_default hparse, map_withoutId_default source, hperm, hsuggest,
    hwoven, happlied, htotal, hsome, ?_⟩
  intro hzero
  have hnone : waits source = [] := by
    by_contra hne
    have := hsome hne
    omega
  constructor
  · rw [hnone] at hperm
    exact hperm.eq_nil
  · rw [innermostWaits, hnone] at hwoven
    exact eq_of_utf8_eq hwoven

/-- `await waitFor(() => getByText(await wait(() => getByRole())));` -/
def nestedWaits : Source where
  path := "a.js"
  text := "await waitFor(() => getByText(await wait(() => getByRole())));"
  language := .javascript
  tree :=
    .named "program" 0 62 none [
      .named "expression_statement" 0 62 none [
        .named "await_expression" 0 61 none [
          .token "await" 0 5,
          .named "call_expression" 6 61 none [
            .named "identifier" 6 13 (some .function) [],
            .named "arguments" 13 61 (some .arguments) [
              .token "(" 13 14,
              .named "arrow_function" 14 60 none [
                .named "formal_parameters" 14 16 (some .parameters) [
                  .token "(" 14 15, .token ")" 15 16],
                .token "=>" 17 19,
                .named "call_expression" 20 60 (some .body) [
                  .named "identifier" 20 29 (some .function) [],
                  .named "arguments" 29 60 (some .arguments) [
                    .token "(" 29 30,
                    .named "await_expression" 30 59 none [
                      .token "await" 30 35,
                      .named "call_expression" 36 59 none [
                        .named "identifier" 36 40 (some .function) [],
                        .named "arguments" 40 59 (some .arguments) [
                          .token "(" 40 41,
                          .named "arrow_function" 41 58 none [
                            .named "formal_parameters" 41 43 (some .parameters) [
                              .token "(" 41 42, .token ")" 42 43],
                            .token "=>" 44 46,
                            .named "call_expression" 47 58 (some .body) [
                              .named "identifier" 47 56 (some .function) [],
                              .named "arguments" 56 58 (some .arguments) [
                                .token "(" 56 57, .token ")" 57 58]]],
                          .token ")" 58 59]]],
                    .token ")" 59 60]]],
              .token ")" 60 61]]],
        .token ";" 61 62]]

theorem laid_nestedWaits : nestedWaits.tree.Laid nestedWaits.text :=
  Node.laid_of_ascii (by decide) (by decide) (by decide)

/-- Of the two waits in `nestedWaits` the inner one is replaced. -/
theorem suggest_nestedWaits :
    ∃ outcome, suggest (fun _ _ => nestedWaits.tree) nestedWaits.text "a.js" none = .ok outcome ∧
      outcome.text = "await waitFor(() => getByText(await findByRole()));" ∧
      outcome.applied = 1 ∧ outcome.skipped = 1 := by
  have hparse : parseClean (fun _ _ => nestedWaits.tree) nestedWaits.text "a.js" =
      .ok nestedWaits := by rfl
  have hcounts : (innermostWaits nestedWaits).length = 1 ∧ (waits nestedWaits).length = 2 := by
    decide +kernel
  have hwoven : Edit.weave (utf8 nestedWaits.text) 0
      ((innermostWaits nestedWaits).map (waitEdit nestedWaits)) =
      utf8 "await waitFor(() => getByText(await findByRole()));" := by
    decide +kernel
  obtain ⟨_, outcome, _, _, _, hok, htext, happlied, htotal, _⟩ :=
    suggest_innermost hparse laid_nestedWaits
  rw [hcounts.1] at happlied
  rw [hcounts.2] at htotal
  exact ⟨outcome, hok, eq_of_utf8_eq (htext.trans hwoven), happlied, by omega⟩

end QueryLint.Lint
