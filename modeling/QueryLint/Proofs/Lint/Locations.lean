import Mathlib.Data.List.Forall2
import QueryLint.Proofs.Code.Laid
import QueryLint.Proofs.Lint.Independence
import QueryLint.Proofs.Text.Position

/-!
# Where findings are

Findings are sorted by line, column and rule. As positions grow with offsets, this is the order of the
places that were reported, and the location of a finding leads back to its place. The number at the end
of a finding's id is its position among the findings, so no two of them have the same id.
-/
namespace QueryLint.Lint

open QueryLint.Code QueryLint.Code.Place QueryLint.Finding QueryLint.Rule QueryLint.Text

theorem ofDigitChars_fourDigits (n : Nat) : Nat.ofDigitChars 10 (fourDigits n).toList 0 = n := by
  have hzeros : ∀ k, Nat.ofDigitChars 10 (List.replicate k '0') 0 = 0 := by
    intro k
    induction k with
    | zero => rfl
    | succ k ih => simp [List.replicate_succ, Nat.ofDigitChars_cons, ih]
  rw [fourDigits, String.toList_ofList, Nat.ofDigitChars_append, hzeros,
    Nat.ofDigitChars_toDigits (by decide) (by decide)]

theorem underscore_notMem_fourDigits (n : Nat) : '_' ∉ (fourDigits n).toList := by
  rw [fourDigits, String.toList_ofList, List.mem_append, not_or]
  refine ⟨fun h => absurd (List.eq_of_mem_replicate h) (by decide), fun h => ?_⟩
  exact absurd (Nat.isDigit_of_mem_toDigits (by decide) (by decide) h) (by decide)

theorem position_eq_of_findingId_eq {f g : Finding} {i j : Nat}
    (h : findingId f i = findingId g j) : i = j := by
  -- the position is read back from what follows the last underscore
  have htail : ∀ (front : List Char) (n : Nat),
      ((front ++ '_' :: (fourDigits n).toList).reverse.takeWhile (· != '_')).reverse =
        (fourDigits n).toList := by
    intro front n
    have hall : ∀ c ∈ (fourDigits n).toList.reverse, (c != '_') = true := by
      intro c hc
      rw [bne_iff_ne]
      rintro rfl
      exact underscore_notMem_fourDigits n (List.mem_reverse.mp hc)
    rw [List.reverse_append, List.reverse_cons, List.append_assoc,
      List.takeWhile_append_of_pos hall]
    simp
  have hid : ∀ (f : Finding) (n : Nat), ∃ front,
      (findingId f n).toList = front ++ '_' :: (fourDigits n).toList := fun f n =>
    ⟨"tl_".toList ++ (f.fingerprint.toList.drop 7).take 8, by simp [findingId]⟩
  obtain ⟨front, hfront⟩ := hid f i
  obtain ⟨front', hfront'⟩ := hid g j
  have hdigits : (fourDigits i).toList = (fourDigits j).toList := by
    rw [← htail front i, ← hfront, h, hfront', htail]
  rw [← ofDigitChars_fourDigits i, hdigits, ofDigitChars_fourDigits]

theorem nodup_id_arrange (findings : List Finding) : ((arrange findings).map (·.id)).Nodup := by
  rw [arrange, List.map_map]
  refine List.Nodup.map_on ?_ (.of_map Prod.snd ?_)
  · rintro ⟨f, i⟩ hf ⟨g, j⟩ hg h
    cases position_eq_of_findingId_eq h
    have hfi := List.mem_zipIdx_iff_getElem?.mp hf
    rw [List.mem_zipIdx_iff_getElem?.mp hg] at hfi
    cases hfi
    rfl
  · rw [List.zipIdx_map_snd]
    exact List.nodup_range'

variable {source : Source}

theorem identifier_mem_places {site : Query.CallSite} (h : site ∈ AwaitQuery.unhandledSites source) :
    site.identifier ∈ source.tree.places := by
  obtain ⟨_, hcallee, hname, _⟩ :=
    AwaitQuery.callSite?_eq_some_iff.mp (AwaitQuery.callSite?_of_mem_unhandledSites h)
  obtain ⟨f, hf, _, hunwrap⟩ := exists_function_of_callee? hcallee
  have hft := mem_places_of_mem_children (AwaitQuery.mem_unhandledSites_iff.mp h).1 hf
  have hct : site.callee ∈ source.tree.places :=
    preorder_trans hft (mem_preorder_of_unwrap hunwrap)
  rcases hname with ⟨_, heq⟩ | hproperty
  · rwa [heq]
  · unfold property? at hproperty
    split_ifs at hproperty
    exact mem_places_of_mem_children hct (mem_children_of_childAs hproperty)

theorem place_mem_places {rule : Rule} (h : rule ∈ registered) {r : Report}
    (hr : r ∈ (soloNotes source rule).reports) : r.place ∈ source.tree.places := by
  simp only [registered, List.mem_cons, List.not_mem_nil, or_false] at h
  rcases h with rfl | rfl
  · simp only [soloNotes, AwaitQuery.soloWalk_rule] at hr
    obtain ⟨site, hsite, rfl⟩ := List.mem_map.mp hr
    exact identifier_mem_places hsite
  · simp only [soloNotes, PreferFind.soloWalk_rule] at hr
    have hplace := List.mem_map_of_mem hr (f := (·.place))
    rw [PreferFind.map_place_waitReports] at hplace
    exact (PreferFind.waits_sublist source).subset hplace

/-- The reports of the rule of an id. -/
def reportsOf (source : Source) (id : String) : List Report :=
  match Rule.ofId? id with
  | some rule => (soloNotes source rule).reports
  | none => []

/-- A finding is that of a report, and its location leads back to the place: of all offsets of the text
only those of the place have the positions. -/
structure Locates (source : Source) (f : Finding) (r : Report) : Prop where
  finding : ∃ rule ∈ registered, ∃ severity, rule.info.id = r.ruleId ∧
    withoutId f = r.toFinding rule.info severity source
  inText : r.place.start ≤ r.place.stop ∧ r.place.stop ≤ byteLength source.text
  start : ∀ offset ≤ byteLength source.text,
    ((positionOf source.text offset).row + 1 = f.location.lineStart ∧
      (positionOf source.text offset).column + 1 = f.location.columnStart) ↔
        offset = r.place.start
  stop : ∀ offset ≤ byteLength source.text,
    ((positionOf source.text offset).row + 1 = f.location.lineEnd ∧
      (positionOf source.text offset).column + 1 = f.location.columnEnd) ↔
        offset = r.place.stop
  edit : r.ruleId = PreferFind.info.id → ∃ suggestion, f.suggestions = [suggestion] ∧
    suggestion.edit.start = r.place.start ∧ suggestion.edit.stop = r.place.stop

/-- Whether a chosen rule makes a report. -/
def Makes (source : Source) (c : Chosen) (r : Report) : Prop :=
  c.rule ∈ registered ∧ r ∈ (soloNotes source c.rule).reports

/-- The finding of a report of a chosen rule. -/
def findingOf (source : Source) (made : Chosen × Report) : Finding :=
  made.2.toFinding made.1.rule.info made.1.severity source

/-- The reports of the rules that are asked for, each with its rule as it runs. -/
def madeReports (source : Source) (config : Config) (ids : List String) : List (Chosen × Report) :=
  ids.flatMap fun id => (requested? config id).toList.flatMap fun c =>
    (soloNotes source c.rule).reports.map fun r => (c, r)

theorem map_findingOf_madeReports (config : Config) (ids : List String) :
    (madeReports source config ids).map (findingOf source) =
      ids.flatMap (soloFindings source config) := by
  simp only [madeReports, List.map_flatMap, List.map_map]
  rfl

theorem map_snd_madeReports (config : Config) (ids : List String) :
    (madeReports source config ids).map (·.2) = ids.flatMap (reportsOf source) := by
  rw [madeReports, List.map_flatMap]
  congr 1
  funext id
  rw [requested?, reportsOf]
  cases Rule.ofId? id <;> simp [Function.comp_def]

theorem makes_of_mem_madeReports {config : Config} {ids : List String} {made : Chosen × Report}
    (h : made ∈ madeReports source config ids) : Makes source made.1 made.2 := by
  simp only [madeReports, List.mem_flatMap, Option.mem_toList, requested?] at h
  obtain ⟨id, _, c, hc, hmade⟩ := h
  obtain ⟨r, hr, rfl⟩ := List.mem_map.mp hmade
  obtain ⟨rule, hrule, rfl⟩ := Option.map_eq_some_iff.mp hc
  exact ⟨(mem_registered_of_ofId? hrule).1, hr⟩

section Located

variable (wf : source.tree.WellFormed) (hstop : source.tree.label.stop ≤ byteLength source.text)

include wf hstop

theorem within_text {p : Place} (hp : p ∈ source.tree.places) :
    p.start ≤ byteLength source.text ∧ p.stop ≤ byteLength source.text := by
  have hbounds := within_of_mem_preorder wf.nested (mem_preorder_self _) hp
  have hrange := wf.range p hp
  have hroot : (Place.root source.tree).stop = source.tree.label.stop := rfl
  omega

theorem locates_findingOf {c : Chosen} {r : Report} (h : Makes source c r) {f : Finding}
    (hf : withoutId f = findingOf source (c, r)) : Locates source f r := by
  obtain ⟨hrule, hr⟩ := h
  have hp := place_mem_places hrule hr
  obtain ⟨hfirst, hlast⟩ := within_text wf hstop hp
  have hlocation : f.location = (findingOf source (c, r)).location := by rw [← hf]; rfl
  refine ⟨⟨c.rule, hrule, c.severity, (ruleId_of_mem_soloNotes hrule hr).symm, hf⟩,
    ⟨wf.range _ hp, hlast⟩, ?_, ?_, ?_⟩
  · intro offset hoffset
    rw [hlocation, ← positionOf_eq_iff hoffset hfirst]
    simp only [findingOf, Report.toFinding, Source.startOf, Position.ext_iff]
    omega
  · intro offset hoffset
    rw [hlocation, ← positionOf_eq_iff hoffset hlast]
    simp only [findingOf, Report.toFinding, Source.stopOf, Position.ext_iff]
    omega
  · intro hid
    have hsuggestions : f.suggestions = r.suggestions := by
      rw [show f.suggestions = (withoutId f).suggestions from rfl, hf]
      rfl
    rw [ruleId_of_mem_soloNotes hrule hr] at hid
    have hprefer : c.rule = PreferFind.rule := by
      simp only [registered, List.mem_cons, List.not_mem_nil, or_false] at hrule
      refine hrule.resolve_left fun heq => ?_
      rw [heq] at hid
      exact absurd hid (by decide)
    rw [hprefer] at hr
    simp only [soloNotes, PreferFind.soloWalk_rule] at hr
    obtain ⟨v, _, a, _, q, caller, _, _, hreport⟩ :=
      PreferFind.exists_isWait_of_reportAt? (PreferFind.reportAt?_of_mem_waitReports hr)
    have hone := congrArg Report.suggestions hreport
    exact ⟨_, hsuggestions.trans hone, rfl, rfl⟩

/-- Reports whose findings are in order are in the order of their places. -/
theorem start_le_of_sortKey_le {c d : Chosen} {r s : Report} (hr : Makes source c r)
    (hs : Makes source d s)
    (h : sortKey (findingOf source (c, r)) ≤ sortKey (findingOf source (d, s))) :
    r.place.start < s.place.start ∨ r.place.start = s.place.start ∧ r.ruleId ≤ s.ruleId := by
  have hrt := (within_text wf hstop (place_mem_places hr.1 hr.2)).1
  have hst := (within_text wf hstop (place_mem_places hs.1 hs.2)).1
  simp only [sortKey, findingOf, Report.toFinding, Prod.Lex.toLex_le_toLex, Source.startOf] at h
  rcases Nat.lt_trichotomy r.place.start s.place.start with hlt | heq | hgt
  · exact .inl hlt
  · rw [heq] at h
    exact .inr ⟨heq, by simpa using h⟩
  · have hkey := strictMonoOn_positionOf source.text hst hrt hgt
    simp only [Position.key, Prod.Lex.toLex_lt_toLex] at hkey
    omega

end Located

/-- Findings come in the order of the places that were reported, those of one place in the order of
the rules' ids, each with an id of its own; and each location tells the offsets of its place. -/
theorem lintSource_located (wf : source.tree.WellFormed)
    (hstop : source.tree.label.stop ≤ byteLength source.text) (config : Config) {ids : List String}
    (hids : ∀ id ∈ ids, id ∈ registered.map (·.info.id)) :
    ∃ findings, ∃ reports : List Report,
      lintSource source config (some ids) = .ok findings ∧
      reports.Perm (ids.flatMap (reportsOf source)) ∧
      (∀ r ∈ reports, r.place ∈ source.tree.places) ∧
      reports.Pairwise (fun r s =>
        r.place.start < s.place.start ∨ r.place.start = s.place.start ∧ r.ruleId ≤ s.ruleId) ∧
      (findings.map (·.id)).Nodup ∧
      List.Forall₂ (Locates source) findings reports := by
  -- the reports are sorted along with their findings, so that each finding keeps its report
  obtain ⟨sorted, hsorted⟩ : ∃ sorted, sorted = (madeReports source config ids).mergeSort
      fun a b => sortKey (findingOf source a) ≤ sortKey (findingOf source b) := ⟨_, rfl⟩
  have hperm : sorted.Perm (madeReports source config ids) := by
    rw [hsorted]
    exact List.mergeSort_perm _ _
  have hmakes : ∀ made ∈ sorted, Makes source made.1 made.2 := fun made hmade =>
    makes_of_mem_madeReports (hperm.subset hmade)
  have harranged : arrange (ids.flatMap (soloFindings source config)) =
      sorted.zipIdx.map fun (made, i) =>
        { findingOf source made with id := findingId (findingOf source made) i } := by
    have hmap : (ids.flatMap (soloFindings source config)).mergeSort precedes =
        sorted.map (findingOf source) := by
      rw [← map_findingOf_madeReports, hsorted]
      exact (List.map_mergeSort fun a _ b _ =>
        (precedes_eq (findingOf source a) (findingOf source b)).symm).symm
    rw [arrange, hmap, List.zipIdx_map, List.map_map]
    rfl
  have hpairs : sorted.Pairwise fun a b =>
      sortKey (findingOf source a) ≤ sortKey (findingOf source b) := by
    rw [hsorted]
    exact pairwise_mergeSort_key _ _
  refine ⟨_, sorted.map (·.2), lintSource_requested source config hids, ?_, ?_, ?_,
    nodup_id_arrange _, ?_⟩
  · rw [← map_snd_madeReports config]
    exact hperm.map _
  · intro r hr
    obtain ⟨made, hmade, rfl⟩ := List.mem_map.mp hr
    exact place_mem_places (hmakes made hmade).1 (hmakes made hmade).2
  · rw [List.pairwise_map]
    exact hpairs.imp_of_mem fun ha hb h =>
      start_le_of_sortKey_le wf hstop (hmakes _ ha) (hmakes _ hb) h
  · rw [harranged]
    conv => arg 3; rw [← List.zipIdx_map_fst 0 sorted, List.map_map]
    rw [List.forall₂_map_left_iff, List.forall₂_map_right_iff, List.forall₂_same]
    rintro ⟨made, i⟩ hmade
    have hmem : made ∈ sorted := List.fst_mem_of_mem_zipIdx hmade
    exact locates_findingOf wf hstop (hmakes made hmem) rfl

/-- A wait in the second line, and a query in the third. -/
def threeLines : Source where
  path := "a.js"
  text := "// ü\r\nawait waitFor(() => getByRole())\nfindByText()"
  language := .javascript
  tree :=
    .named "program" 0 52 none [
      .named "comment" 0 5 none [],
      .named "expression_statement" 7 39 none [
        .named "await_expression" 7 39 none [
          .named "call_expression" 13 39 none [
            .named "identifier" 13 20 (some .function) [],
            .named "arguments" 20 39 (some .arguments) [
              .named "arrow_function" 21 38 none [
                .named "formal_parameters" 21 23 (some .parameters) [],
                .named "call_expression" 27 38 (some .body) [
                  .named "identifier" 27 36 (some .function) [],
                  .named "arguments" 36 38 (some .arguments) []]]]]]],
      .named "expression_statement" 40 52 none [
        .named "call_expression" 40 52 none [
          .named "identifier" 40 50 (some .function) [],
          .named "arguments" 50 52 (some .arguments) []]]]

/-- The findings of `threeLines` come in the order of its lines, whichever rule is asked for first. -/
theorem lintSource_threeLines :
    threeLines.tree.WellFormed ∧ threeLines.tree.label.stop ≤ byteLength threeLines.text ∧
      ∃ findings, ∃ reports : List Report,
        lintSource threeLines .default (some ["await-async-query", "prefer-find-by"]) =
          .ok findings ∧
        reports.map (fun r => (r.ruleId, r.place.start)) =
          [("prefer-find-by", 13), ("await-async-query", 40)] ∧
        (findings.map (·.id)).Nodup ∧ List.Forall₂ (Locates threeLines) findings reports := by
  have wf : threeLines.tree.WellFormed := by decide
  have hstop : threeLines.tree.label.stop ≤ byteLength threeLines.text := by decide
  obtain ⟨findings, reports, hok, hperm, _, hpairs, hnodup, hlocates⟩ :=
    @lintSource_located threeLines wf hstop .default ["await-async-query", "prefer-find-by"]
      (by decide)
  have hreports : (["await-async-query", "prefer-find-by"].flatMap (reportsOf threeLines)).map
      (fun r => (r.ruleId, r.place.start)) =
        [("await-async-query", 40), ("prefer-find-by", 13)] := rfl
  refine ⟨wf, hstop, findings, reports, hok, ?_, hnodup, hlocates⟩
  have hmap := hperm.map fun r => (r.ruleId, r.place.start)
  rw [hreports] at hmap
  obtain ⟨r, s, rfl⟩ := List.length_eq_two.mp (by simpa using hmap.length_eq)
  rw [List.map_cons, List.map_singleton] at hmap
  have hsorted := (List.pairwise_cons.mp hpairs).1 s List.mem_cons_self
  rcases List.mem_pair.mp (hmap.subset List.mem_cons_self) with hr | hr
  · -- then the query in the third line would come first
    rw [hr, List.perm_cons, List.singleton_perm_singleton] at hmap
    simp only [Prod.mk.injEq] at hr hmap
    omega
  · have hswapped := hmap.trans (.swap _ _ _)
    rw [hr, List.perm_cons, List.singleton_perm_singleton] at hswapped
    rw [List.map_cons, List.map_singleton, hr, hswapped]

end QueryLint.Lint
