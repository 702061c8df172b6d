import QueryLint.Proofs.Code.WellFormed
import QueryLint.Proofs.Lint.Single
import QueryLint.Proofs.Query.Waits
import QueryLint.Proofs.Text.Template

/-!
# Which waits are reported

The rule keeps nothing back: it reports each awaited wait of the plain form when it comes to it, so
its notes after any part of a walk are the reports of the waits met so far. Since the query of a wait
always has a waiting form, making a report never fails.
-/
namespace QueryLint.Rule.PreferFind

open QueryLint.Code QueryLint.Code.Place QueryLint.Code.ListenerTable
open QueryLint.Data QueryLint.Finding QueryLint.Lint QueryLint.Query QueryLint.Text

/-- `wait` is awaited and waits for `q` alone, which calls the query `method`, of the object
`caller` if there is one. -/
structure IsWait (source : Source) (wait q : Place) (method : String) (caller : Option String) :
    Prop where
  awaited : ∃ owner, wait.owner? = some owner ∧ owner.isAwait
  waits : WaitsFor source wait q
  calls : CallsAtOnce source q method caller

/-- What is reported of a wait, with the text to put in its place. -/
def waitReport (source : Source) (wait : Place) (variant accessor text : String) : Report :=
  let message :=
    "Prefer " ++ variant ++ accessor ++ " method over using await " ++ source.textOf wait
  { ruleId := info.id
    place := wait
    messageId := messageId
    message
    data := [("queryVariant", .text variant), ("queryMethod", .text accessor),
      ("fullQuery", .text (source.textOf wait))]
    suggestions := [⟨messageId, message, ⟨wait.start, wait.stop, text⟩⟩] }

/-- The report of a place, if it is a wait. -/
def reportAt? (source : Source) (p : Place) : Option Report :=
  (awaitedWait? source p).map fun query =>
    waitReport source p query.variant ((accessor? query.method).getD "")
      ((query.replacement source).getD "")

/-- The reports of the rule, in the order of the tree. -/
def waitReports (source : Source) : List Report := source.tree.places.filterMap (reportAt? source)

variable {source : Source}

theorem awaitedWait?_eq_some_iff {p : Place} {query : WaitedQuery} :
    awaitedWait? source p = some query ↔
      ∃ q, IsWait source p q query.method query.caller ∧ query.arguments = q.callArguments := by
  rw [awaitedWait?]
  constructor
  · intro h
    split_ifs at h with hawait
    obtain ⟨q, hwaits, hcalls, harguments⟩ := waitedQuery?_eq_some_iff.mp h
    exact ⟨q, ⟨(Option.any_eq_true _ _).mp hawait, hwaits, hcalls⟩, harguments⟩
  · rintro ⟨q, ⟨hawait, hwaits, hcalls⟩, harguments⟩
    rw [if_pos ((Option.any_eq_true _ _).mpr hawait)]
    exact waitedQuery?_eq_some_iff.mpr ⟨q, hwaits, hcalls, harguments⟩

theorem waitedQuery?_of_awaitedWait? {p : Place} {query : WaitedQuery}
    (h : awaitedWait? source p = some query) : waitedQuery? source p = some query := by
  rw [awaitedWait?] at h
  split_ifs at h
  exact h

theorem isCall_of_awaitedWait? {p : Place} {query : WaitedQuery}
    (h : awaitedWait? source p = some query) : p.isCall := by
  obtain ⟨q, hwait, _⟩ := awaitedWait?_eq_some_iff.mp h
  obtain ⟨callee, _, hcallee, _⟩ := hwait.waits.waiting
  exact isCall_of_callee? hcallee

theorem messageOf_wait (variant accessor text : String) :
    messageOf info messageId
        [("queryVariant", .text variant), ("queryMethod", .text accessor),
          ("fullQuery", .text text)] =
      .ok ("Prefer " ++ variant ++ accessor ++ " method over using await " ++ text) := by
  obtain ⟨value, hvalue⟩ : ∃ value : String → Option String,
      value = fun key => (Members.get? [("queryVariant", .text variant),
        ("queryMethod", .text accessor), ("fullQuery", .text text)] key).map Value.shown := ⟨_, rfl⟩
  have hnames : ∀ name ∈ ["queryVariant", "queryMethod", "fullQuery"],
      name.toList ≠ [] ∧ ∀ c ∈ name.toList, isWordChar c := by
    have hall : (["queryVariant", "queryMethod", "fullQuery"].all fun name =>
        !name.toList.isEmpty && name.toList.all isWordChar) = true := by
      decide
    simpa only [List.all_eq_true, Bool.and_eq_true, Bool.not_eq_true', List.isEmpty_eq_false_iff]
      using hall
  have hvariant : value "queryVariant" = some variant := by rw [hvalue]; rfl
  have haccessor : value "queryMethod" = some accessor := by rw [hvalue]; rfl
  have htext : value "fullQuery" = some text := by rw [hvalue]; rfl
  have htemplate : info.messages.lookup messageId = some
      ("Prefer \x7b\x7bqueryVariant\x7d\x7d\x7b\x7bqueryMethod\x7d\x7d method " ++
        "over using await \x7b\x7bfullQuery\x7d\x7d") := by decide
  have hchars : ("Prefer \x7b\x7bqueryVariant\x7d\x7d\x7b\x7bqueryMethod\x7d\x7d method " ++
      "over using await \x7b\x7bfullQuery\x7d\x7d").toList =
      "Prefer ".toList ++ '\x7b' :: '\x7b' :: ("queryVariant".toList ++ '\x7d' :: '\x7d' ::
        '\x7b' :: '\x7b' :: ("queryMethod".toList ++ '\x7d' :: '\x7d' ::
          (" method over using await ".toList ++
            '\x7b' :: '\x7b' :: ("fullQuery".toList ++ '\x7d' :: '\x7d' :: [])))) := by simp
  rw [messageOf, htemplate]
  simp only [fillMessage, fill, Except.ok.injEq]
  rw [← hvalue, hchars, fillChars_append (by simp), fillChars_braced (hnames _ (by simp)) hvariant,
    fillChars_braced (hnames _ (by simp)) haccessor, fillChars_append (by simp),
    fillChars_braced (hnames _ (by simp)) htext, fillChars]
  apply String.toList_injective
  simp

/-- A wait is reported with one suggestion, and its message is that of the report. -/
theorem onCall_visit (limits : Limits) (p : Place) (notes : Notes) :
    onCall limits source (.visit p) notes =
      .ok { notes with reports := notes.reports ++ (reportAt? source p).toList } := by
  cases h : awaitedWait? source p with
  | none => simp [onCall, reportAt?, h]
  | some query =>
    obtain ⟨q, hwait, _⟩ := awaitedWait?_eq_some_iff.mp h
    have hwaited : waitedQuery? source p = some query :=
      waitedQuery?_eq_some_iff.mpr ⟨q, hwait.waits, hwait.calls, ‹_›⟩
    obtain ⟨v, _, a, _, _, hvariant, haccessor, _, _, hreplacement⟩ := exists_replacement hwaited
    simp [onCall, reportAt?, h, violation?, hvariant, haccessor, hreplacement, Notes.report_eq,
      report, suggestionOf, messageOf_wait, Replacement.edit, waitReport, bind, Except.bind, pure,
      Except.pure]

theorem reportAt?_eq_none {p : Place} (h : ¬ p.isCall) : reportAt? source p = none := by
  cases hwait : awaitedWait? source p with
  | none => rw [reportAt?, hwait, Option.map_none]
  | some query => exact absurd (isCall_of_awaitedWait? hwait) h

/-- Visiting places adds the reports of the waits among them. -/
theorem foldlM_visits (limits : Limits) (places : List Place) (notes : Notes) :
    (places.flatMap fun p => (listenersFor rule.listeners p.kind).map (·, Occasion.visit p)).foldlM
        (call limits source) notes =
      .ok { notes with reports := notes.reports ++ places.filterMap (reportAt? source) } := by
  induction places generalizing notes with
  | nil => simp [pure, Except.pure]
  | cons p places ih =>
    have hlisteners : listenersFor rule.listeners p.kind =
        if Kind.callExpression = p.kind then [onCall] else [] := by
      rw [rule, listenersFor_cons]
      simp [listenersFor]
    rw [List.flatMap_cons, List.foldlM_append, hlisteners]
    by_cases hcall : Kind.callExpression = p.kind
    · rw [if_pos hcall]
      simp only [List.map_cons, List.map_nil, List.foldlM_cons, List.foldlM_nil, call, onCall_visit,
        bind, Except.bind, pure, Except.pure, ih]
      cases h : reportAt? source p <;> simp [h]
    · have hnone : reportAt? source p = none :=
        reportAt?_eq_none fun hk => hcall (beq_iff_eq.mp hk).symm
      rw [if_neg hcall, List.filterMap_cons_none hnone]
      exact ih notes

/-- The rule keeps within any limits. -/
theorem soloWalk_rule (source : Source) (limits : Limits := .unlimited) :
    soloWalk source rule limits = .ok ⟨.none, waitReports source⟩ := by
  have hfinish : listenersFor rule.listeners programExit = [] := rfl
  rw [soloWalk, soloCalls, hfinish, List.map_nil, List.append_nil, foldlM_visits]
  rfl

theorem place_of_reportAt? {p : Place} {r : Report} (h : reportAt? source p = some r) :
    r.place = p := by
  obtain ⟨query, _, rfl⟩ := Option.map_eq_some_iff.mp h
  rfl

/-- A report is that of a wait, with the waiting form of its query as the suggestion. -/
theorem exists_isWait_of_reportAt? {p : Place} {r : Report} (h : reportAt? source p = some r) :
    ∃ v ∈ waitingVariants, ∃ a ∈ accessors, ∃ q caller, IsWait source p q (v.1 ++ a) caller ∧
      isAsync (v.2 ++ a) ∧
      r = waitReport source p v.2 a
        (callText caller (v.2 ++ a) (q.callArguments.map source.textOf)) := by
  obtain ⟨query, hquery, rfl⟩ := Option.map_eq_some_iff.mp h
  obtain ⟨q, hwait, harguments⟩ := awaitedWait?_eq_some_iff.mp hquery
  obtain ⟨v, hv, a, ha, hmethod, hvariant, haccessor, hasync, _, hreplacement⟩ :=
    exists_replacement (waitedQuery?_of_awaitedWait? hquery)
  refine ⟨v, hv, a, ha, q, query.caller, hmethod ▸ hwait, hasync, ?_⟩
  rw [hvariant, haccessor, hreplacement, harguments]
  rfl

theorem isSome_reportAt?_iff {p : Place} :
    (reportAt? source p).isSome ↔ ∃ q method caller, IsWait source p q method caller := by
  rw [reportAt?, Option.isSome_map, Option.isSome_iff_exists]
  constructor
  · rintro ⟨query, hquery⟩
    obtain ⟨q, hwait, _⟩ := awaitedWait?_eq_some_iff.mp hquery
    exact ⟨q, _, _, hwait⟩
  · rintro ⟨q, method, caller, hwait⟩
    exact ⟨⟨method, caller, q.callArguments⟩, awaitedWait?_eq_some_iff.mpr ⟨q, hwait, rfl⟩⟩

/-- The waits that are reported, in the order of the tree. -/
def waits (source : Source) : List Place :=
  source.tree.places.filter fun p => (reportAt? source p).isSome

theorem map_place_waitReports (source : Source) :
    (waitReports source).map (·.place) = waits source := by
  rw [waitReports, waits]
  induction source.tree.places with
  | nil => rfl
  | cons p places ih =>
    cases h : reportAt? source p with
    | none => simp [h, ih]
    | some r => simp [h, ih, place_of_reportAt? h]

theorem mem_waits_iff {p : Place} :
    p ∈ waits source ↔
      p ∈ source.tree.places ∧ ∃ q method caller, IsWait source p q method caller := by
  rw [waits, List.mem_filter, isSome_reportAt?_iff]

theorem waits_sublist (source : Source) : (waits source).Sublist source.tree.places :=
  List.filter_sublist

theorem nodup_waits (source : Source) : (waits source).Nodup :=
  (waits_sublist source).nodup (nodup_preorder _)

theorem reportAt?_of_mem_waitReports {r : Report} (h : r ∈ waitReports source) :
    reportAt? source r.place = some r := by
  obtain ⟨p, _, hr⟩ := List.mem_filterMap.mp h
  rw [place_of_reportAt? hr]
  exact hr

/-- With only this rule, each awaited wait of the plain form is reported once, with one suggestion
that covers the wait, and nothing else is. -/
theorem lintSource_reports_waits {config : Config} {rules : Option (List String)}
    (h : rules = some [info.id] ∨ rules = none ∧ config.enabledRules = [info.id]) :
    ∃ severity findings, ∃ reports : List Report,
      lintSource source config rules = .ok findings ∧ severity ≠ .off ∧
      (findings.map fun f => { f with id := "" }).Perm
        (reports.map fun r => r.toFinding info severity source) ∧
      (reports.map (·.place)).Sublist source.tree.places ∧ (reports.map (·.place)).Nodup ∧
      (∀ wait, wait ∈ reports.map (·.place) ↔
        wait ∈ source.tree.places ∧ ∃ q method caller, IsWait source wait q method caller) ∧
      ∀ r ∈ reports, ∃ v ∈ waitingVariants, ∃ a ∈ accessors, ∃ q caller,
        IsWait source r.place q (v.1 ++ a) caller ∧ isAsync (v.2 ++ a) ∧
        r = waitReport source r.place v.2 a
          (callText caller (v.2 ++ a) (q.callArguments.map source.textOf)) := by
  have hid : Rule.ofId? info.id = some rule := by
    simp [Rule.ofId?, Rule.registered, rule, AwaitQuery.rule, info, AwaitQuery.info]
  obtain ⟨severity, hsev, hchoose⟩ := choose_single h hid (by decide)
  refine ⟨severity, _, waitReports source, lintSource_single hchoose (soloWalk_rule source), hsev,
    ?_, ?_, ?_, ?_, ?_⟩
  · refine (arrange_perm _).trans ?_
    rw [List.map_map]
    exact .of_eq rfl
  · rw [map_place_waitReports]
    exact waits_sublist source
  · rw [map_place_waitReports]
    exact nodup_waits source
  · intro wait
    rw [map_place_waitReports]
    exact mem_waits_iff
  · intro r hr
    exact exists_isWait_of_reportAt? (reportAt?_of_mem_waitReports hr)

/-- `await (waitFor)(() => (screen.getAllByRole(x, y)))` -/
def awaitedWait : Source where
  path := "a.js"
  text := "await (waitFor)(() => (screen.getAllByRole(x, y)))"
  language := .javascript
  tree :=
    .named "program" 0 50 none [
      .named "await_expression" 0 50 none [
        .named "call_expression" 6 50 none [
          .named "parenthesized_expression" 6 15 (some .function) [
            .named "identifier" 7 14 none []],
          .named "arguments" 15 50 (some .arguments) [
            .named "arrow_function" 16 49 none [
              .named "formal_parameters" 16 18 (some .parameters) [],
              .named "parenthesized_expression" 22 49 (some .body) [
                .named "call_expression" 23 48 none [
                  .named "member_expression" 23 42 (some .function) [
                    .named "identifier" 23 29 (some .object) [],
                    .named "property_identifier" 30 42 (some .property) []],
                  .named "arguments" 42 48 (some .arguments) [
                    .named "identifier" 43 44 none [],
                    .named "identifier" 46 47 none []]]]]]]]]

/-- The only finding of `awaitedWait` suggests `screen.findAllByRole(x, y)`. -/
theorem lintSource_awaitedWait :
    ∃ findings, lintSource awaitedWait .default (some [info.id]) = .ok findings ∧
      findings.map (fun f => f.suggestions.map (·.edit)) =
        [[⟨6, 50, "screen.findAllByRole(x, y)"⟩]] := by
  obtain ⟨severity, findings, reports, hok, _, hperm, _, hnodup, hplaces, hreports⟩ :=
    @lintSource_reports_waits awaitedWait .default (some [info.id]) (.inl rfl)
  have hwaits : waits awaitedWait = [awaitedWait.tree.placeAt 2] := rfl
  have hplace : reports.map (·.place) = [awaitedWait.tree.placeAt 2] := by
    refine List.perm_singleton.mp
      ((List.perm_ext_iff_of_nodup hnodup (List.nodup_singleton _)).mpr fun wait => ?_)
    rw [hplaces, ← mem_waits_iff, hwaits]
  obtain ⟨r, rfl, hr⟩ := List.map_eq_singleton_iff.mp hplace
  obtain ⟨v, hv, a, ha, q, caller, hwait, _, hreport⟩ := hreports r List.mem_cons_self
  rw [hr] at hwait hreport
  have hquery : awaitedWait? awaitedWait (awaitedWait.tree.placeAt 2) =
      some ⟨"getAllByRole", some "screen",
        [awaitedWait.tree.placeAt 14, awaitedWait.tree.placeAt 15]⟩ := rfl
  have hfound : awaitedWait? awaitedWait (awaitedWait.tree.placeAt 2) =
      some ⟨v.1 ++ a, caller, q.callArguments⟩ :=
    awaitedWait?_eq_some_iff.mpr ⟨q, hwait, rfl⟩
  obtain ⟨hmethod, rfl, harguments⟩ :=
    WaitedQuery.mk.inj (Option.some.inj (hquery.symm.trans hfound))
  have hwaiting : ∀ v ∈ waitingVariants, ∀ a ∈ accessors, "getAllByRole" = v.1 ++ a →
      v.2 ++ a = "findAllByRole" := by decide +kernel
  rw [hwaiting v hv a ha hmethod, ← harguments] at hreport
  refine ⟨findings, hok, ?_⟩
  obtain ⟨finding, rfl, hfinding⟩ := List.map_eq_singleton_iff.mp (List.perm_singleton.mp hperm)
  have hsuggestions := congrArg Finding.suggestions hfinding
  rw [hreport] at hsuggestions
  rw [List.map_singleton, hsuggestions]
  rfl

end QueryLint.Rule.PreferFind
