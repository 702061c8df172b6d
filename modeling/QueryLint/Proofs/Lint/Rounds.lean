import Mathlib.Order.Bounds.Basic
import QueryLint.Proofs.Lint.Checking

/-!
# Rounds of suggestions

When suggestions are applied again and again, each round takes away the innermost waits and leaves the
others as they are. So the number of waits nested in one another falls by one with each round, and the
rounds come to an end when it is zero.
-/
namespace QueryLint.Lint

open QueryLint.Code QueryLint.Code.Place QueryLint.Query QueryLint.Rule QueryLint.Rule.PreferFind
open QueryLint.Text
open QueryLint.Finding (Edit)

/-- The largest number of reported waits nested in one another. -/
def nesting (source : Source) : Nat := height ((waits source).map path)

/-- Whether the tree of `source'` is that of `source` with each innermost wait replaced. -/
def IsRewritten (source source' : Source) : Prop :=
  Rewritten source source' source.root source'.root

variable {source source' : Source} {p : Place}

theorem nodup_paths (source : Source) : ((waits source).map path).Nodup := by
  refine List.Nodup.map_on (fun p hp q hq hpath => ?_) (nodup_waits source)
  exact eq_of_path_eq (mem_waits_iff.mp hp).1 (mem_waits_iff.mp hq).1 hpath

/-- A place that lies in no innermost wait is still there. -/
theorem exists_rewritten (h : IsRewritten source source') (hp : p ∈ source.tree.places)
    (habove : ∀ a ∈ p.ancestors, a ∉ innermostWaits source) :
    ∃ p' ∈ source'.tree.places, p'.path = p.path ∧ Rewritten source source' p p' ∧
      p'.owner?.any (·.isAwait) = p.owner?.any (·.isAwait) := by
  induction p with
  | root n =>
    rw [eq_root_of_mem_places hp]
    exact ⟨_, mem_preorder_self _, rfl, h, rfl⟩
  | child parent i n ih =>
    have hparent := mem_places_of_mem_ancestors hp List.mem_cons_self
    obtain ⟨parent', hparent', hpath, hrewritten, howner⟩ := ih hparent fun a ha =>
      habove a (List.mem_cons_of_mem _ ha)
    have hchildren := hrewritten.children (habove parent List.mem_cons_self)
    obtain ⟨p', _, hpp', hc, hc', hpaths⟩ :=
      exists_of_forall₂ (forall₂_path hchildren hpath).flip (mem_children_of_mem_places hp)
    exact ⟨p', mem_places_of_mem_children hparent' hc', hpaths, hpp',
      hrewritten.any_owner?_children howner hc hc'⟩

theorem countP_path_eq (path : List Nat) :
    ((waits source).map Place.path).countP (·.isPrefixOf path) =
      ((waits source).filter fun v => v.path.isPrefixOf path).length := by
  rw [List.countP_map, List.countP_eq_length_filter]
  rfl

section Laid

variable (laid : source.tree.Laid source.text)
include laid

theorem not_innermost_of_mem_ancestors {w : Place} (hw : w ∈ waits source) :
    ∀ a ∈ w.ancestors, a ∉ innermostWaits source := by
  intro a ha hinnermost
  have hplace := (mem_waits_iff.mp hw).1
  have hbelow := (mem_descendants_iff (mem_places_of_mem_ancestors hplace ha)).mpr ⟨hplace, ha⟩
  have hnone := reportAt?_eq_none_of_mem_descendants laid hinnermost hbelow
  have hsome := (List.mem_filter.mp hw).2
  rw [hnone] at hsome
  cases hsome

/-- The waits that are reported after a round are those that were not replaced. -/
theorem map_path_waits (h : IsRewritten source source') :
    (waits source').map path = (outerWaits source).map path := by
  have hall := Rewritten.filter_waits laid h (mem_preorder_self _) rfl rfl
  rw [waits, outerWaits, waits, List.filter_filter]
  simp only [Bool.and_comm] at hall ⊢
  exact hall

/-- Each of them is what has become of the wait in its place. -/
theorem forall₂_waits (h : IsRewritten source source') :
    List.Forall₂ (fun w w' => w'.path = w.path ∧ Rewritten source source' w w')
      (outerWaits source) (waits source') := by
  have hpaths : List.Forall₂ (fun w w' => w'.path = w.path) (outerWaits source) (waits source') := by
    have heq := List.forall₂_eq_eq_eq ▸ (map_path_waits laid h).symm
    rw [List.forall₂_map_left_iff, List.forall₂_map_right_iff] at heq
    exact heq.imp fun _ _ h => h.symm
  obtain ⟨hlength, hrel⟩ := List.forall₂_iff_get.mp hpaths
  refine List.forall₂_iff_get.mpr ⟨hlength, fun i hi hi' => ⟨hrel i hi hi', ?_⟩⟩
  have hwait : (outerWaits source)[i] ∈ waits source :=
    (List.mem_filter.mp (List.getElem_mem hi)).1
  obtain ⟨p', hp', hpath, hrewritten, _⟩ := exists_rewritten h (mem_waits_iff.mp hwait).1
    (not_innermost_of_mem_ancestors laid hwait)
  have hplace' := (mem_waits_iff.mp (List.getElem_mem hi')).1
  rwa [eq_of_path_eq hp' hplace' (hpath.trans (hrel i hi hi').symm)] at hrewritten

/-- What has become of an innermost wait is reported by neither rule. -/
theorem exists_unreported (h : IsRewritten source source') {w : Place}
    (hw : w ∈ innermostWaits source) :
    ∃ call ∈ source'.tree.places, call.path = w.path ∧ Rewritten source source' w call ∧
      call ∉ waits source' ∧ call ∉ (AwaitQuery.unhandledSites source').map (·.call) := by
  have hwait := (List.mem_filter.mp hw).1
  obtain ⟨call, hcall, hpath, hrewritten, howner⟩ :=
    exists_rewritten h (mem_waits_iff.mp hwait).1 (not_innermost_of_mem_ancestors laid hwait)
  refine ⟨call, hcall, hpath, hrewritten, fun hreported => ?_, fun hreported => ?_⟩
  · have hnone := hrewritten.reportAt?_eq_none_of_replaced laid hw call (mem_preorder_self call)
    have hsome := (List.mem_filter.mp hreported).2
    rw [hnone] at hsome
    cases hsome
  · -- the call is still awaited, and so its promise is handled
    obtain ⟨_, hunhandled⟩ := AwaitQuery.mem_map_call_unhandledSites_iff.mp hreported
    obtain ⟨_, q, method, caller, hwaits⟩ := mem_waits_iff.mp hwait
    obtain ⟨owner, hownerw, hawait⟩ := hwaits.awaited
    rw [hownerw, Option.any_some, hawait, Option.any_eq_true] at howner
    obtain ⟨owner', howner', hawait'⟩ := howner
    have hkind : owner'.kind ∈ handlingKinds := by
      rw [beq_iff_eq.mp hawait']
      decide
    exact (hunhandled.notHandled owner' howner').1 hkind

theorem liesWithin_iff {v w : Place} (hv : v ∈ waits source) (hw : w ∈ waits source) :
    LiesWithin v w ↔ w ∈ v.ancestors := by
  have hvp := (mem_waits_iff.mp hv).1
  have hwp := (mem_waits_iff.mp hw).1
  constructor
  · rintro ⟨hstart, hstop, hstrict⟩
    have hpairs := pairwise_places (nested_of_laid laid)
    have hpos := start_lt_stop_of_mem_waits laid hv
    obtain ⟨i, hi, rfl⟩ := List.getElem_of_mem hvp
    obtain ⟨j, hj, rfl⟩ := List.getElem_of_mem hwp
    rcases Nat.lt_trichotomy i j with hij | rfl | hji
    · rcases List.pairwise_iff_getElem.mp hpairs i j hi hj hij with habove | hapart
      · have hinside := within_of_mem_descendants laid hw hv
          ((mem_descendants_iff hvp).mpr ⟨hwp, habove⟩)
        omega
      · omega
    · omega
    · rcases List.pairwise_iff_getElem.mp hpairs j i hj hi hji with habove | hapart
      · exact habove
      · omega
  · intro h
    have hinside := within_of_mem_descendants laid hv hw ((mem_descendants_iff hwp).mpr ⟨hvp, h⟩)
    exact ⟨Nat.le_of_lt hinside.1, hinside.2, .inl hinside.1⟩

theorem map_path_outerWaits :
    (outerWaits source).map path = ((waits source).map path).filter fun w =>
      ∃ v ∈ (waits source).map path, w <+: v ∧ w ≠ v := by
  rw [outerWaits, List.filter_map]
  congr 1
  refine List.filter_congr fun w hw => decide_eq_decide.mpr ?_
  have hpath : ∀ v ∈ waits source, (LiesWithin v w ↔ w.path <+: v.path ∧ w.path ≠ v.path) := by
    intro v hv
    rw [liesWithin_iff laid hv hw,
      mem_ancestors_iff_path (mem_waits_iff.mp hw).1 (mem_waits_iff.mp hv).1]
  constructor
  · rintro ⟨v, hv, hwithin⟩
    exact ⟨v.path, List.mem_map_of_mem hv, (hpath v hv).mp hwithin⟩
  · rintro ⟨_, hmem, hbegins⟩
    obtain ⟨v, hv, rfl⟩ := List.mem_map.mp hmem
    exact ⟨v, hv, (hpath v hv).mpr hbegins⟩

/-- A round takes one level of waits away. -/
theorem nesting_of_isRewritten (h : IsRewritten source source') :
    nesting source' = nesting source - 1 := by
  rw [nesting, map_path_waits laid h, map_path_outerWaits laid, height_filter (nodup_paths source),
    nesting]

theorem within_of_isPrefixOf {v w : Place} (hv : v ∈ waits source) (hw : w ∈ waits source)
    (h : v.path.isPrefixOf w.path) : v.start ≤ w.start ∧ w.stop ≤ v.stop := by
  have hvp := (mem_waits_iff.mp hv).1
  have hwp := (mem_waits_iff.mp hw).1
  by_cases hpath : v.path = w.path
  · rw [eq_of_path_eq hvp hwp hpath]
    exact ⟨Nat.le_refl _, Nat.le_refl _⟩
  · have habove := (mem_ancestors_iff_path hvp hwp).mpr ⟨List.isPrefixOf_iff_prefix.mp h, hpath⟩
    have hinside := within_of_mem_descendants laid hw hv ((mem_descendants_iff hvp).mpr ⟨hwp, habove⟩)
    omega

/-- The waits around a wait, itself among them, are nested in one another. -/
theorem pairwise_liesWithin_around {w : Place} (hw : w ∈ waits source) :
    ((waits source).filter fun v => v.path.isPrefixOf w.path).Pairwise fun a b =>
      LiesWithin b a := by
  have hplaces := (pairwise_places (nested_of_laid laid)).sublist (waits_sublist source)
  refine (hplaces.sublist List.filter_sublist).imp_of_mem fun {a b} ha hb hab => ?_
  obtain ⟨ha, haw⟩ := List.mem_filter.mp ha
  obtain ⟨hb, hbw⟩ := List.mem_filter.mp hb
  rcases hab with habove | hapart
  · exact (liesWithin_iff laid hb ha).mpr habove
  · -- the one that begins the path is around `w`, and so is the other
    have hpos := start_lt_stop_of_mem_waits laid hw
    have haround := within_of_isPrefixOf laid ha hw haw
    have hbround := within_of_isPrefixOf laid hb hw hbw
    omega

/-- The last of some waits nested in one another lies within each of them. -/
theorem isPrefixOf_last {front : List Place} {w : Place} (hsub : (front ++ [w]).Sublist (waits source))
    (hpairs : (front ++ [w]).Pairwise fun a b => LiesWithin b a) :
    ∀ a ∈ front ++ [w], a.path.isPrefixOf w.path := by
  intro a ha
  have hw : w ∈ waits source := hsub.subset (by simp)
  rcases List.mem_append.mp ha with hfront | hlast
  · have hwithin := (List.pairwise_append.mp hpairs).2.2 a hfront w (List.mem_singleton_self w)
    have habove := (liesWithin_iff laid hw (hsub.subset ha)).mp hwithin
    have hpath := (mem_ancestors_iff_path (mem_waits_iff.mp (hsub.subset ha)).1
      (mem_waits_iff.mp hw).1).mp habove
    exact List.isPrefixOf_iff_prefix.mpr hpath.1
  · rw [List.mem_singleton.mp hlast]
    simp

/-- Waits nested in one another are reported one after the other. -/
theorem nesting_isGreatest :
    IsGreatest {n | ∃ chain : List Place, chain.Sublist (waits source) ∧
      (chain.Pairwise fun a b => LiesWithin b a) ∧ chain.length = n} (nesting source) := by
  constructor
  · by_cases hnone : waits source = []
    · refine ⟨[], List.nil_sublist _, .nil, ?_⟩
      rw [nesting, hnone]
      rfl
    · obtain ⟨_, hmem, hheight⟩ := exists_height (by simpa using hnone : (waits source).map path ≠ [])
      obtain ⟨w, hw, rfl⟩ := List.mem_map.mp hmem
      refine ⟨_, List.filter_sublist, pairwise_liesWithin_around laid hw, ?_⟩
      rw [← countP_path_eq, hheight, nesting]
  · rintro n ⟨chain, hsub, hpairs, rfl⟩
    rcases List.eq_nil_or_concat chain with rfl | ⟨front, w, rfl⟩
    · exact Nat.zero_le _
    · rw [List.concat_eq_append] at hsub hpairs ⊢
      have hw : w ∈ waits source := hsub.subset (by simp)
      have hle := countP_le_height (List.mem_map_of_mem (f := path) hw)
      have hlength := (hsub.filter fun v => v.path.isPrefixOf w.path).length_le
      rw [List.filter_eq_self.mpr (isPrefixOf_last laid hsub hpairs), ← countP_path_eq] at hlength
      exact Nat.le_trans hlength hle

end Laid

section Run

variable (grammar : Grammar) (filename : String) (language : Language) (text : String)

/-- A text with suggestions applied, or the same text if they cannot be. -/
def suggested : String :=
  match suggest grammar text filename none with
  | .ok outcome => outcome.text
  | .error _ => text

/-- A text after some rounds of suggestions. -/
def textAfter : Nat → String
  | 0 => text
  | n + 1 => suggested grammar filename (textAfter n)

/-- The source of a text after some rounds of suggestions. -/
def sourceAfter (n : Nat) : Source :=
  ⟨filename, textAfter grammar filename text n, language,
    grammar language (textAfter grammar filename text n)⟩

/-- Whether a grammar reads the text after each of some rounds as the rewritten tree. -/
structure ReadsRewritten (rounds : Nat) : Prop where
  rewritten : ∀ n < rounds, IsRewritten (sourceAfter grammar filename language text n)
    (sourceAfter grammar filename language text (n + 1))
  laid : ∀ n < rounds, (sourceAfter grammar filename language text (n + 1)).tree.Laid
    (textAfter grammar filename text (n + 1))

variable {grammar filename language text}

theorem parseClean_eq (hlanguage : Language.choose none (.ofString filename) = .ok language)
    (hclean : (grammar language text).label.hasError = false) :
    parseClean grammar text filename = .ok ⟨filename, text, language, grammar language text⟩ :=
  (parseClean_of_choose grammar text hlanguage).trans (if_neg (Bool.eq_false_iff.mp hclean))

theorem suggested_eq {outcome : Edit.Outcome}
    (h : suggest grammar text filename none = .ok outcome) :
    suggested grammar filename text = outcome.text := by
  unfold suggested
  simp only [h]

theorem nesting_eq_zero_iff : nesting source = 0 ↔ waits source = [] := by
  rw [nesting, height_eq_zero_iff, List.map_eq_nil_iff]

/-- What a round does to a text without syntax errors. -/
theorem suggest_of_parseClean (hparse : parseClean grammar text filename = .ok source)
    (laid : source.tree.Laid source.text) :
    ∃ findings outcome, lintText grammar text filename .default none = .ok findings ∧
      suggest grammar text filename none = .ok outcome ∧
      utf8 outcome.text =
        Edit.weave (utf8 text) 0 ((innermostWaits source).map (waitEdit source)) ∧
      outcome.applied = (innermostWaits source).length ∧
      (suggestedEdits findings = [] ↔ waits source = []) := by
  have htext := text_of_parseClean hparse
  obtain ⟨outcome, hok, hwoven, happlied, _⟩ := applyAll_default laid
  rw [htext] at hok hwoven
  have hsuggest := suggest_of_applyAll hparse hok
  refine ⟨_, outcome, lintText_default hparse, hsuggest, hwoven, happlied, ?_⟩
  have hperm := suggestedEdits_arrange_default source
  rw [← List.map_eq_nil_iff (f := waitEdit source), ← List.length_eq_zero_iff,
    ← List.length_eq_zero_iff, hperm.length_eq]

/-- What each of the rounds begins with. -/
theorem parseClean_textAfter (hparse : parseClean grammar text filename = .ok source)
    (laid : source.tree.Laid source.text)
    (hreads : ReadsRewritten grammar filename source.language text (nesting source)) {n : Nat}
    (hn : n ≤ nesting source) :
    parseClean grammar (textAfter grammar filename text n) filename =
        .ok (sourceAfter grammar filename source.language text n) ∧
      (sourceAfter grammar filename source.language text n).tree.Laid
        (textAfter grammar filename text n) ∧
      nesting (sourceAfter grammar filename source.language text n) = nesting source - n := by
  obtain ⟨language, hlanguage, hsource, _⟩ := parseClean_eq_ok hparse
  have hchoose : Language.choose none (.ofString filename) = .ok source.language := by
    rw [hlanguage, hsource]
  have hfirst : sourceAfter grammar filename source.language text 0 = source := by
    rw [hsource]
    rfl
  induction n with
  | zero =>
    rw [hfirst, textAfter, ← text_of_parseClean hparse]
    exact ⟨text_of_parseClean hparse ▸ hparse, laid, rfl⟩
  | succ n ih =>
    obtain ⟨hparsed, hlaid, hnesting⟩ := ih (Nat.le_of_succ_le hn)
    have hrewritten := hreads.rewritten n hn
    refine ⟨?_, hreads.laid n hn, ?_⟩
    · have herror : (sourceAfter grammar filename source.language text (n + 1)).hasErrors =
          (sourceAfter grammar filename source.language text n).hasErrors :=
        hrewritten.label.hasError_eq
      obtain ⟨_, _, _, hbefore⟩ := parseClean_eq_ok hparsed
      rw [hbefore] at herror
      exact parseClean_eq hchoose herror
    · rw [nesting_of_isRewritten hlaid hrewritten, hnesting]
      omega

/-- Each round takes away the innermost waits, and after as many rounds as waits are nested in one
another there are no more suggestions. -/
theorem suggest_rounds (hparse : parseClean grammar text filename = .ok source)
    (laid : source.tree.Laid source.text) :
    (∀ source', IsRewritten source source' →
      ∃ findings, lintSource source' .default none = .ok findings ∧
        (findings.map withoutId).Perm (unhandledFindings source' ++ waitFindings source') ∧
        List.Forall₂ (fun w r => r.place.path = w.path ∧ Rewritten source source' w r.place)
          (outerWaits source) (waitReports source') ∧
        ∀ w ∈ innermostWaits source, ∃ call ∈ source'.tree.places, call.path = w.path ∧
          Rewritten source source' w call ∧ call ∉ (waitReports source').map (·.place) ∧
          call ∉ (AwaitQuery.unhandledSites source').map (·.call)) ∧
    IsGreatest {n | ∃ chain : List Place, chain.Sublist (waits source) ∧
      (chain.Pairwise fun a b => LiesWithin b a) ∧ chain.length = n} (nesting source) ∧
    (ReadsRewritten grammar filename source.language text (nesting source) →
      ∀ n ≤ nesting source, ∃ findings outcome,
        lintText grammar (textAfter grammar filename text n) filename .default none = .ok findings ∧
        suggest grammar (textAfter grammar filename text n) filename none = .ok outcome ∧
        outcome.text = textAfter grammar filename text (n + 1) ∧
        utf8 outcome.text = Edit.weave (utf8 (textAfter grammar filename text n)) 0
          ((innermostWaits (sourceAfter grammar filename source.language text n)).map
            (waitEdit (sourceAfter grammar filename source.language text n))) ∧
        (suggestedEdits findings = [] ↔ n = nesting source) ∧
        (outcome.applied = 0 ↔ n = nesting source)) := by
  refine ⟨fun source' h => ⟨_, lintSource_default source', map_withoutId_default source', ?_, ?_⟩,
    nesting_isGreatest laid, fun hreads n hn => ?_⟩
  · have hwaits := forall₂_waits laid h
    rwa [← map_place_waitReports, List.forall₂_map_right_iff] at hwaits
  · rw [map_place_waitReports]
    exact fun w hw => exists_unreported laid h hw
  obtain ⟨hparsed, hlaid, hnesting⟩ := parseClean_textAfter hparse laid hreads hn
  obtain ⟨findings, outcome, hlint, hsuggest, hwoven, happlied, hnone⟩ :=
    suggest_of_parseClean hparsed hlaid
  have hend : waits (sourceAfter grammar filename source.language text n) = [] ↔
      n = nesting source := by
    rw [← nesting_eq_zero_iff, hnesting]
    omega
  refine ⟨findings, outcome, hlint, hsuggest, ?_, hwoven, hnone.trans hend, ?_⟩
  · rw [textAfter, suggested_eq hsuggest]
  · rw [happlied, List.length_eq_zero_iff, ← hend]
    constructor
    · intro hempty
      by_contra hne
      exact innermostWaits_ne_nil hlaid hne hempty
    · intro hempty
      rw [innermostWaits, hempty]
      rfl

end Run

/-- `await waitFor(() => getByText(await findByRole()));` -/
def outerWait : Source where
  path := "a.js"
  text := "await waitFor(() => getByText(await findByRole()));"
  language := .javascript
  tree :=
    .named "program" 0 51 none [
      .named "expression_statement" 0 51 none [
        .named "await_expression" 0 50 none [
          .token "await" 0 5,
          .named "call_expression" 6 50 none [
            .named "identifier" 6 13 (some .function) [],
            .named "arguments" 13 50 (some .arguments) [
              .token "(" 13 14,
              .named "arrow_function" 14 49 none [
                .named "formal_parameters" 14 16 (some .parameters) [
                  .token "(" 14 15, .token ")" 15 16],
                .token "=>" 17 19,
                .named "call_expression" 20 49 (some .body) [
                  .named "identifier" 20 29 (some .function) [],
                  .named "arguments" 29 49 (some .arguments) [
                    .token "(" 29 30,
                    .named "await_expression" 30 48 none [
                      .token "await" 30 35,
                      .named "call_expression" 36 48 none [
                        .named "identifier" 36 46 (some .function) [],
                        .named "arguments" 46 48 (some .arguments) [
                          .token "(" 46 47, .token ")" 47 48]]],
                    .token ")" 48 49]]],
              .token ")" 49 50]]],
        .token ";" 50 51]]

/-- `await findByText(await findByRole());` -/
def noWait : Source where
  path := "a.js"
  text := "await findByText(await findByRole());"
  language := .javascript
  tree :=
    .named "program" 0 37 none [
      .named "expression_statement" 0 37 none [
        .named "await_expression" 0 36 none [
          .token "await" 0 5,
          .named "call_expression" 6 36 none [
            .named "identifier" 6 16 (some .function) [],
            .named "arguments" 16 36 (some .arguments) [
              .token "(" 16 17,
              .named "await_expression" 17 35 none [
                .token "await" 17 22,
                .named "call_expression" 23 35 none [
                  .named "identifier" 23 33 (some .function) [],
                  .named "arguments" 33 35 (some .arguments) [
                    .token "(" 33 34, .token ")" 34 35]]],
              .token ")" 35 36]]],
        .token ";" 36 37]]

/-- Reads the texts of `nestedWaits` and `outerWait`, and takes any other for that of `noWait`. -/
def nestedGrammar : Grammar := fun _ text =>
  if text = nestedWaits.text then nestedWaits.tree
  else if text = outerWait.text then outerWait.tree else noWait.tree

theorem suggested_eq_of_weave {grammar : Grammar} {filename text text' : String}
    (hparse : parseClean grammar text filename = .ok source)
    (laid : source.tree.Laid source.text)
    (hwoven : Edit.weave (utf8 text) 0 ((innermostWaits source).map (waitEdit source)) =
      utf8 text') :
    suggested grammar filename text = text' := by
  obtain ⟨_, outcome, _, hsuggest, htext, _⟩ := suggest_of_parseClean hparse laid
  rw [suggested_eq hsuggest]
  exact eq_of_utf8_eq (htext.trans hwoven)

theorem isRewritten_outerWait : IsRewritten nestedWaits outerWait :=
  rewritten_of_hasBecome (n := 20) (mem_preorder_self _) (by decide +kernel)

theorem isRewritten_noWait : IsRewritten outerWait noWait :=
  rewritten_of_hasBecome (n := 20) (mem_preorder_self _) (by decide +kernel)

theorem laid_outerWait : outerWait.tree.Laid outerWait.text :=
  Node.laid_of_ascii (by decide +kernel) (by decide +kernel) (by decide +kernel)

theorem laid_noWait : noWait.tree.Laid noWait.text :=
  Node.laid_of_ascii (by decide +kernel) (by decide +kernel) (by decide +kernel)

/-- The two waits of `nestedWaits` are gone after two rounds. -/
theorem suggest_rounds_nestedWaits :
    nesting nestedWaits = 2 ∧
      textAfter nestedGrammar "a.js" nestedWaits.text 2 = "await findByText(await findByRole());" ∧
      ∃ findings, lintText nestedGrammar (textAfter nestedGrammar "a.js" nestedWaits.text 2) "a.js"
        .default none = .ok findings ∧ suggestedEdits findings = [] := by
  have hnested : nestedGrammar .javascript nestedWaits.text = nestedWaits.tree := if_pos rfl
  have houter : nestedGrammar .javascript outerWait.text = outerWait.tree :=
    (if_neg (by decide)).trans (if_pos rfl)
  have hno : nestedGrammar .javascript noWait.text = noWait.tree :=
    (if_neg (by decide)).trans (if_neg (by decide))
  have hchoose : Language.choose none (.ofString "a.js") = .ok .javascript := by rfl
  have hparse : parseClean nestedGrammar nestedWaits.text "a.js" = .ok nestedWaits := by
    have hclean := @parseClean_eq nestedGrammar "a.js" .javascript nestedWaits.text hchoose
    rw [hnested] at hclean
    exact hclean rfl
  have hparse' : parseClean nestedGrammar outerWait.text "a.js" = .ok outerWait := by
    have hclean := @parseClean_eq nestedGrammar "a.js" .javascript outerWait.text hchoose
    rw [houter] at hclean
    exact hclean rfl
  have hone : textAfter nestedGrammar "a.js" nestedWaits.text 1 = outerWait.text := by
    refine suggested_eq_of_weave hparse laid_nestedWaits ?_
    decide +kernel
  have htwo : textAfter nestedGrammar "a.js" nestedWaits.text 2 = noWait.text := by
    rw [textAfter, hone]
    refine suggested_eq_of_weave hparse' laid_outerWait ?_
    decide +kernel
  have hnesting : nesting nestedWaits = 2 := by
    decide +kernel
  have hzero : sourceAfter nestedGrammar "a.js" .javascript nestedWaits.text 0 = nestedWaits := by
    rw [sourceAfter, textAfter, hnested]
    rfl
  have hfirst : sourceAfter nestedGrammar "a.js" .javascript nestedWaits.text 1 = outerWait := by
    rw [sourceAfter, hone, houter]
    rfl
  have hsecond : sourceAfter nestedGrammar "a.js" .javascript nestedWaits.text 2 = noWait := by
    rw [sourceAfter, htwo, hno]
    rfl
  have hreads : ReadsRewritten nestedGrammar "a.js" nestedWaits.language nestedWaits.text
      (nesting nestedWaits) := by
    have hlanguage : nestedWaits.language = .javascript := rfl
    rw [hnesting, hlanguage]
    constructor
    · intro n hn
      match n, hn with
      | 0, _ =>
        rw [hzero, hfirst]
        exact isRewritten_outerWait
      | 1, _ =>
        rw [hfirst, hsecond]
        exact isRewritten_noWait
    · intro n hn
      match n, hn with
      | 0, _ =>
        rw [hfirst, hone]
        exact laid_outerWait
      | 1, _ =>
        rw [hsecond, htwo]
        exact laid_noWait
  obtain ⟨_, _, hrun⟩ := suggest_rounds hparse laid_nestedWaits
  obtain ⟨findings, _, hlint, _, _, _, hnone, _⟩ := hrun hreads 2 (Nat.le_of_eq hnesting.symm)
  exact ⟨hnesting, htwo, findings, hlint, hnone.mpr hnesting.symm⟩

end QueryLint.Lint
