import QueryLint.Proofs.Lint.Failure
import QueryLint.Proofs.Rule.Trimming

/-!
# Findings in a trimmed tree

Linting a trimmed tree comes to the same findings, since these tell of places only their ranges and
texts, and the places that are reported are kept. The one thing that may differ is the text that is
suggested in place of a wait: it repeats the arguments of a query as they are written, with parentheses.
-/
namespace QueryLint.Code.Trimming

open QueryLint.Code.Place QueryLint.Lint QueryLint.Query QueryLint.Rule

variable {source source' : Source} {t : Trimming source source'}

theorem stays_of_mem_arguments {p a : Place} {q : WaitedQuery} (h : t.Keeps p)
    (hq : PreferFind.awaitedWait? source p = some q) (ha : a ∈ q.arguments) : t.Stays a := by
  obtain ⟨call, hwait, harguments⟩ := PreferFind.awaitedWait?_eq_some_iff.mp hq
  obtain ⟨argument, callback, body, hargument, hcallback, _, _, hbody, hcall, _⟩ :=
    hwait.waits.callback
  have hcallbackKeeps : t.Keeps callback :=
    keeps_of_unwrap (stays_of_mem_callArguments h (hargument ▸ List.mem_cons_self)) hcallback
  rw [harguments] at ha
  exact stays_of_mem_callArguments (keeps_of_unwrap (stays_of_body? hcallbackKeeps hbody) hcall) ha

/-- Whether something told of reports is told alike whichever way the arguments of a query are
written. -/
def Overlooks {β : Type*} (t : Trimming source source') (view : Report → β) : Prop :=
  ∀ (wait : Place) (q : WaitedQuery) (accessor : String), (∀ a ∈ q.arguments, t.Stays a) →
    view (t.moved (PreferFind.waitReport source wait q.variant accessor
        (((t.query q).replacement source').getD ""))) =
      view (t.moved (PreferFind.waitReport source wait q.variant accessor
        ((q.replacement source).getD "")))

/-- If no text changes, there is nothing to overlook. -/
theorem overlooks_of_texts {β : Type*}
    (h : ∀ p, t.Stays p → source'.textOf (t.place p) = source.textOf p) (view : Report → β) :
    t.Overlooks view := by
  intro wait q accessor hstays
  have htexts : (t.query q).arguments.map source'.textOf = q.arguments.map source.textOf := by
    rw [query, List.map_map]
    exact List.map_congr_left fun a ha => by rw [Function.comp_apply, h a (hstays a ha)]
  have hreplacement : (t.query q).replacement source' = q.replacement source := by
    rw [WaitedQuery.replacement, WaitedQuery.replacement, htexts]
    rfl
  rw [hreplacement]

section Reports

variable {β : Type*} {view : Report → β}

theorem map_waitReports (hview : t.Overlooks view) :
    (PreferFind.waitReports source').map view =
      (PreferFind.waitReports source).map (view ∘ t.moved) := by
  rw [PreferFind.waitReports, PreferFind.waitReports, List.map_filterMap, List.map_filterMap,
    List.filterMap_eq_flatMap_toList, List.filterMap_eq_flatMap_toList]
  refine flatMap_places (t := t) (fun p hp => ?_) fun p hp hfate => ?_
  · rw [reportAt?_place hp, PreferFind.reportAt?, Option.map_map, Option.map_map]
    refine congrArg Option.toList (Option.map_congr fun q hq => ?_)
    exact hview p q _ fun a ha => stays_of_mem_arguments hp hq ha
  · cases hr : PreferFind.reportAt? source p with
    | none => rfl
    | some r => exact absurd (keeps_of_reportAt? hp hr).fate hfate

theorem keeps_of_mem_reports {rule : Rule} (h : rule ∈ registered) {r : Report}
    (hr : r ∈ (soloNotes source rule).reports) : t.Keeps r.place := by
  simp only [registered, List.mem_cons, List.not_mem_nil, or_false] at h
  rcases h with rfl | rfl
  · simp only [soloNotes, AwaitQuery.soloWalk_rule] at hr
    obtain ⟨s, hs, rfl⟩ := List.mem_map.mp hr
    exact keeps_of_mem_unhandledSites hs
  · simp only [soloNotes, PreferFind.soloWalk_rule] at hr
    have hreport := PreferFind.reportAt?_of_mem_waitReports hr
    have hmem := List.mem_map_of_mem hr (f := (·.place))
    rw [PreferFind.map_place_waitReports] at hmem
    exact keeps_of_reportAt? ((PreferFind.waits_sublist source).subset hmem) hreport

/-- A rule reports what the places that it reports have become. -/
theorem map_reports (hview : t.Overlooks view) {rule : Rule} (h : rule ∈ registered) :
    (soloNotes source' rule).reports.map view =
      (soloNotes source rule).reports.map (view ∘ t.moved) := by
  simp only [registered, List.mem_cons, List.not_mem_nil, or_false] at h
  rcases h with rfl | rfl
  · simp only [soloNotes, AwaitQuery.soloWalk_rule, unhandledSites_trim (t := t), List.map_map]
    refine List.map_congr_left fun s hs => ?_
    simp only [Function.comp_apply, siteReport_site (keeps_of_mem_unhandledSites hs)]
  · simp only [soloNotes, PreferFind.soloWalk_rule]
    exact map_waitReports hview

end Reports

section Findings

theorem toFinding_moved {r : Report} (h : t.Keeps r.place) (info : Info)
    (severity : Finding.Severity) :
    (t.moved r).toFinding info severity source' = r.toFinding info severity source := by
  have hstart : source'.startOf (t.place r.place) = source.startOf r.place := by
    rw [Source.startOf, Source.startOf, h.start, t.text_eq]
  have hstop : source'.stopOf (t.place r.place) = source.stopOf r.place := by
    rw [Source.stopOf, Source.stopOf, h.stop, t.text_eq]
  simp only [Report.toFinding, moved, hstart, hstop, h.textOf, snippet, t.text_eq, t.path_eq]

/-- A way to look at findings that keeps what they are sorted and numbered by, and overlooks how the
arguments of a query are written. -/
structure IsView (t : Trimming source source') (view : Finding → Finding) : Prop where
  sortKey : ∀ f, Lint.sortKey (view f) = Lint.sortKey f
  fingerprint : ∀ f, (view f).fingerprint = f.fingerprint
  id : ∀ f id, view { f with id := id } = { view f with id := id }
  overlooks : ∀ info severity, t.Overlooks fun r => view (r.toFinding info severity source')

variable {view : Finding → Finding}

theorem IsView.map_findingsOf (hview : t.IsView view) {c : Chosen} (hc : c.rule ∈ registered) :
    (findingsOf source' c).map view = (findingsOf source c).map view := by
  rw [findingsOf, findingsOf, List.map_map, List.map_map]
  refine (map_reports (hview.overlooks c.rule.info c.severity) hc).trans ?_
  refine List.map_congr_left fun r hr => ?_
  rw [Function.comp_apply, Function.comp_apply, toFinding_moved (keeps_of_mem_reports hc hr)]

theorem IsView.map_arrange (hview : t.IsView view) (findings : List Finding) :
    (arrange findings).map view = arrange (findings.map view) := by
  -- the view keeps the key that findings are sorted by
  have hsort : (findings.map view).mergeSort precedes = (findings.mergeSort precedes).map view := by
    refine (List.map_mergeSort fun a _ b _ => ?_).symm
    rw [precedes_eq, precedes_eq, hview.sortKey, hview.sortKey]
  rw [arrange, arrange, hsort, List.zipIdx_map, List.map_map, List.map_map]
  refine List.map_congr_left fun entry _ => ?_
  have hid : findingId (view entry.1) entry.2 = findingId entry.1 entry.2 := by
    rw [findingId, findingId, hview.fingerprint]
  simp only [Function.comp_apply, Prod.map, id_eq, hid]
  rw [hview.id]

/-- With any configuration and selection of rules, the findings look the same. -/
theorem IsView.map_lintSource (hview : t.IsView view) (config : Config)
    (rules : Option (List String)) :
    (lintSource source' config rules).map (List.map view) =
      (lintSource source config rules).map (List.map view) := by
  rw [lintSource_eq, lintSource_eq]
  cases hchosen : choose config rules with
  | error e => rfl
  | ok chosen =>
    simp only [Except.map, Except.ok.injEq, hview.map_arrange, List.map_flatMap]
    congr 1
    exact List.flatMap_congr fun c hc =>
      hview.map_findingsOf (registered_and_on_of_choose hchosen c hc).1

end Findings

end QueryLint.Code.Trimming
