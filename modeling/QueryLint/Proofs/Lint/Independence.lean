import QueryLint.Proofs.Rule.AwaitQuery
import QueryLint.Proofs.Rule.PreferFind

/-!
# Rules do not depend on each other

The findings of several rules are those of each rule alone, put together and sorted. Findings that are
tied in the order are of one rule, so it does not matter in which order the rules are asked for.
-/
namespace QueryLint.Lint

open QueryLint.Code QueryLint.Rule
open QueryLint.Finding (Severity)

/-- The notes of a rule after a walk of its own. -/
def soloNotes (source : Source) (rule : Rule) : Notes :=
  match soloWalk source rule with
  | .ok own => own
  | .error _ => .empty

theorem soloWalk_registered (source : Source) {rule : Rule} (h : rule ∈ registered) :
    soloWalk source rule = .ok (soloNotes source rule) := by
  have hok : ∃ own, soloWalk source rule = .ok own := by
    simp only [registered, List.mem_cons, List.not_mem_nil, or_false] at h
    rcases h with rfl | rfl
    · exact ⟨_, AwaitQuery.soloWalk_rule source⟩
    · exact ⟨_, PreferFind.soloWalk_rule source⟩
  obtain ⟨own, hown⟩ := hok
  simp only [soloNotes, hown]

/-- Within limits, a rule comes to the notes that it comes to without, or it gives up. -/
theorem failsIff_soloWalk_registered (limits : Limits) (source : Source) {rule : Rule}
    (h : rule ∈ registered) :
    FailsIff (soloWalk source rule limits)
      (rule.info.id = AwaitQuery.info.id ∧ AwaitQuery.GivesUp limits source) (.tooDeep ⟨⟩)
      (soloNotes source rule) := by
  simp only [registered, List.mem_cons, List.not_mem_nil, or_false] at h
  rcases h with rfl | rfl
  · simp only [soloNotes, AwaitQuery.soloWalk_rule]
    exact (AwaitQuery.failsIff_soloWalk_rule limits source).congr (and_iff_right rfl)
  · have hid : PreferFind.rule.info.id ≠ AwaitQuery.info.id := by decide
    simp only [soloNotes, PreferFind.soloWalk_rule]
    exact (FailsIff.of_ok _ (Failure.tooDeep ⟨⟩)).congr (iff_false_intro fun hbad => hid hbad.1)

theorem ruleId_of_mem_soloNotes {source : Source} {rule : Rule} (h : rule ∈ registered)
    {r : Report} (hr : r ∈ (soloNotes source rule).reports) : r.ruleId = rule.info.id := by
  simp only [registered, List.mem_cons, List.not_mem_nil, or_false] at h
  rcases h with rfl | rfl
  · simp only [soloNotes, AwaitQuery.soloWalk_rule] at hr
    obtain ⟨site, _, rfl⟩ := List.mem_map.mp hr
    rfl
  · simp only [soloNotes, PreferFind.soloWalk_rule] at hr
    obtain ⟨v, _, a, _, q, caller, _, _, hreport⟩ :=
      PreferFind.exists_isWait_of_reportAt? (PreferFind.reportAt?_of_mem_waitReports hr)
    rw [hreport]
    rfl

theorem mem_registered_of_ofId? {id : String} {rule : Rule} (h : Rule.ofId? id = some rule) :
    rule ∈ registered ∧ rule.info.id = id :=
  ⟨List.mem_of_find?_eq_some h, by simpa using List.find?_some h⟩

theorem recommended_registered {rule : Rule} (h : rule ∈ registered) :
    rule.info.recommended ≠ .off := by
  simp only [registered, List.mem_cons, List.not_mem_nil, or_false] at h
  rcases h with rfl | rfl <;> decide

/-- The rule of an id as it runs when it is asked for. -/
def requested? (config : Config) (id : String) : Option Chosen :=
  (Rule.ofId? id).map fun rule =>
    ⟨rule, if config.severityFor id = .off then rule.info.recommended else config.severityFor id⟩

theorem choose_requested (config : Config) {ids : List String}
    (h : ∀ id ∈ ids, id ∈ registered.map (·.info.id)) :
    choose config (some ids) = .ok (ids.filterMap (requested? config)) := by
  rw [choose]
  induction ids with
  | nil => rfl
  | cons id ids ih =>
    obtain ⟨rule, hrule⟩ : ∃ rule, Rule.ofId? id = some rule := by
      obtain ⟨rule, hmem, rfl⟩ := List.mem_map.mp (h id List.mem_cons_self)
      exact Option.isSome_iff_exists.mp (List.find?_isSome.mpr ⟨rule, hmem, by simp⟩)
    have hrest := ih fun id hid => h id (List.mem_cons_of_mem _ hid)
    have hrec := recommended_registered (mem_registered_of_ofId? hrule).1
    have hon : requested? config id = some ⟨rule,
        if config.severityFor id = .off then rule.info.recommended
        else config.severityFor id⟩ := by rw [requested?, hrule, Option.map_some]
    rw [List.filterMap_cons_some hon]
    by_cases hoff : config.severityFor id = .off <;>
      simp [chooseFrom, hrule, hrest, hoff, hrec, bind, Except.bind, pure, Except.pure]

theorem chooseFrom_enabled (config : Config) {ids : List String}
    (h : ∀ id ∈ ids, config.severityFor id ≠ .off) :
    chooseFrom config false ids = chooseFrom config true ids := by
  induction ids with
  | nil => rfl
  | cons id ids ih =>
    have hon := h id List.mem_cons_self
    have hrest := ih fun id hid => h id (List.mem_cons_of_mem _ hid)
    simp only [chooseFrom, hrest, hon, false_and, if_false]

/-- The findings of one rule on its own, in the order of its reports. -/
def findingsOf (source : Source) (c : Chosen) : List Finding :=
  (soloNotes source c.rule).reports.map fun r => r.toFinding c.rule.info c.severity source

theorem collect_soloNotes (source : Source) (chosen : List Chosen) :
    collect source chosen (chosen.map fun c => soloNotes source c.rule) =
      chosen.flatMap (findingsOf source) := by
  rw [collect]
  induction chosen with
  | nil => rfl
  | cons c chosen ih =>
    rw [List.map_cons, List.zip_cons_cons, List.flatMap_cons, List.flatMap_cons, ih]
    rfl

/-- The findings of the rule of an id that is asked for alone, in the order of its reports. -/
def soloFindings (source : Source) (config : Config) (id : String) : List Finding :=
  (requested? config id).toList.flatMap (findingsOf source)

theorem ruleId_of_mem_soloFindings {source : Source} {config : Config} {id : String} {f : Finding}
    (h : f ∈ soloFindings source config id) : f.ruleId = id := by
  simp only [soloFindings, List.mem_flatMap, Option.mem_toList, requested?] at h
  obtain ⟨c, hc, hf⟩ := h
  obtain ⟨rule, hrule, rfl⟩ := Option.map_eq_some_iff.mp hc
  obtain ⟨r, hr, rfl⟩ := List.mem_map.mp hf
  obtain ⟨hmem, hid⟩ := mem_registered_of_ofId? hrule
  exact (ruleId_of_mem_soloNotes hmem hr).trans hid

/-- Rules that are asked for have the findings of each of them, arranged. -/
theorem lintSource_requested (source : Source) (config : Config) {ids : List String}
    (h : ∀ id ∈ ids, id ∈ registered.map (·.info.id)) :
    lintSource source config (some ids) =
      .ok (arrange (ids.flatMap (soloFindings source config))) := by
  have hrule : ∀ c ∈ ids.filterMap (requested? config), c.rule ∈ registered := by
    intro c hc
    obtain ⟨id, _, hid⟩ := List.mem_filterMap.mp hc
    obtain ⟨rule, hrule, rfl⟩ := Option.map_eq_some_iff.mp hid
    exact (mem_registered_of_ofId? hrule).1
  have hsolo : List.Forall₂ (fun c own => soloWalk source c.rule = .ok own)
      (ids.filterMap (requested? config))
      ((ids.filterMap (requested? config)).map fun c => soloNotes source c.rule) := by
    rw [List.forall₂_map_right_iff, List.forall₂_same]
    exact fun c hc => soloWalk_registered source (hrule c hc)
  rw [lintSource_of_soloWalk (choose_requested config h) hsolo, collect_soloNotes,
    List.filterMap_eq_flatMap_toList, List.flatMap_assoc]
  rfl

/-- Only the findings of the rule in a key can be under it, so it does not matter where among the
others the rule is named. -/
theorem filter_key_flatMap (source : Source) (config : Config) {ids ids' : List String}
    (h : ids.Perm ids') (k : ℤ ×ₗ ℤ ×ₗ String) :
    (ids.flatMap (soloFindings source config)).filter (sortKey · = k) =
      (ids'.flatMap (soloFindings source config)).filter (sortKey · = k) := by
  have hnone : ∀ id, id ≠ (ofLex (ofLex k).2).2 →
      (soloFindings source config id).filter (sortKey · = k) = [] := by
    intro id hne
    refine List.filter_eq_nil_iff.mpr fun f hf hkey => hne ?_
    rw [← of_decide_eq_true hkey]
    exact (ruleId_of_mem_soloFindings hf).symm
  have hone : ∀ ids : List String,
      (ids.flatMap (soloFindings source config)).filter (sortKey · = k) =
        (ids.filter (· = (ofLex (ofLex k).2).2)).flatMap fun id =>
          (soloFindings source config id).filter (sortKey · = k) := by
    intro ids
    induction ids with
    | nil => rfl
    | cons id ids ih =>
      rw [List.flatMap_cons, List.filter_append, ih]
      by_cases hid : id = (ofLex (ofLex k).2).2
      · rw [List.filter_cons_of_pos (by simpa using hid), List.flatMap_cons]
      · rw [List.filter_cons_of_neg (by simpa using hid), hnone id hid, List.nil_append]
  rw [hone, hone, List.filter_eq, List.filter_eq, h.count_eq]

theorem choose_none (config : Config) :
    choose config none = choose config (some config.enabledRules) :=
  chooseFrom_enabled config fun _ hid => of_decide_eq_true (List.mem_filter.mp hid).2

theorem lintSource_none (source : Source) (config : Config) :
    lintSource source config none = lintSource source config (some config.enabledRules) := by
  rw [lintSource, lintSource, run, run, choose_none]

theorem arrange_congr {fs gs : List Finding}
    (h : ∀ k, fs.filter (sortKey · = k) = gs.filter (sortKey · = k)) : arrange fs = arrange gs := by
  have hsort : fs.mergeSort precedes = gs.mergeSort precedes := by
    have hp : precedes = fun a b => decide (sortKey a ≤ sortKey b) := by
      funext a b
      exact precedes_eq a b
    rw [hp]
    exact mergeSort_eq_of_filter_key_eq sortKey h
  rw [arrange, arrange, hsort]

/-- The findings of several rules are those of each rule alone, sorted by place and rule and given
their ids. So they do not depend on the order in which the rules are asked for, and to ask for none
is to ask for those that are enabled. -/
theorem lintSource_independent (source : Source) (config : Config) {ids : List String}
    (hids : ∀ id ∈ ids, id ∈ registered.map (·.info.id)) :
    ∃ findings, ∃ alone : String → List Finding,
      lintSource source config (some ids) = .ok findings ∧
      (∀ id ∈ ids, lintSource source config (some [id]) = .ok (alone id)) ∧
      findings.map withoutId =
        ((ids.flatMap alone).map withoutId).mergeSort (fun a b => sortKey a ≤ sortKey b) ∧
      (∀ ids', ids'.Perm ids → lintSource source config (some ids') = .ok findings) ∧
      lintSource source config none = lintSource source config (some config.enabledRules) := by
  refine ⟨_, fun id => arrange (soloFindings source config id),
    lintSource_requested source config hids, ?_, ?_, ?_, lintSource_none source config⟩
  · intro id hid
    have hone := @lintSource_requested source config [id] (by simpa using hids id hid)
    rwa [List.flatMap_singleton] at hone
  · rw [map_withoutId_arrange]
    refine mergeSort_eq_of_filter_key_eq sortKey fun k => ?_
    have halone : ∀ id,
        ((arrange (soloFindings source config id)).map withoutId).filter (sortKey · = k) =
          ((soloFindings source config id).map withoutId).filter (sortKey · = k) := by
      intro id
      rw [map_withoutId_arrange, filter_mergeSort_key]
    rw [List.map_flatMap, List.map_flatMap, List.filter_flatMap, List.filter_flatMap]
    simp only [halone]
  · intro ids' hperm
    rw [lintSource_requested source config fun id hid => hids id (hperm.subset hid),
      arrange_congr (filter_key_flatMap source config hperm)]

/-- `findByText(); await waitFor(() => getByRole())` -/
def mixed : Source where
  path := "a.js"
  text := "findByText(); await waitFor(() => getByRole())"
  language := .javascript
  tree :=
    .named "program" 0 46 none [
      .named "expression_statement" 0 13 none [
        .named "call_expression" 0 12 none [
          .named "identifier" 0 10 (some .function) [],
          .named "arguments" 10 12 (some .arguments) []]],
      .named "expression_statement" 14 46 none [
        .named "await_expression" 14 46 none [
          .named "call_expression" 20 46 none [
            .named "identifier" 20 27 (some .function) [],
            .named "arguments" 27 46 (some .arguments) [
              .named "arrow_function" 28 45 none [
                .named "formal_parameters" 28 30 (some .parameters) [],
                .named "call_expression" 34 45 (some .body) [
                  .named "identifier" 34 43 (some .function) [],
                  .named "arguments" 43 45 (some .arguments) []]]]]]]]

/-- Both rules find something in `mixed`, and one of them may be asked for twice. -/
theorem lintSource_mixed :
    ∃ findings, ∃ alone : String → List Finding,
      lintSource mixed .default (some ["prefer-find-by", "await-async-query", "prefer-find-by"]) =
        .ok findings ∧
      findings.map withoutId =
        ((alone "prefer-find-by" ++ alone "await-async-query" ++ alone "prefer-find-by").map
          withoutId).mergeSort (fun a b => sortKey a ≤ sortKey b) ∧
      lintSource mixed .default (some ["await-async-query", "prefer-find-by", "prefer-find-by"]) =
        .ok findings := by
  obtain ⟨findings, alone, hok, _, hsorted, hperm, _⟩ :=
    @lintSource_independent mixed .default
      ["prefer-find-by", "await-async-query", "prefer-find-by"] (by decide)
  refine ⟨findings, alone, hok, ?_, hperm _ (by decide)⟩
  simpa using hsorted

end QueryLint.Lint
