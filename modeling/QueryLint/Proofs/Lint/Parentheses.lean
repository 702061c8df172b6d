import QueryLint.Proofs.Code.Laid
import QueryLint.Proofs.Lint.Trimming

/-!
# Parentheses are transparent

Opening the parentheses at the end of a path is a way to trim the tree: the expression inside takes
their place, their punctuation and comments are dropped, and all other nodes are kept. So each rule
reports the same nodes, and findings differ in the suggested texts alone.
-/
namespace QueryLint.Code

namespace Node

/-- The expression inside parentheses, in the part that they play. -/
def opened : Node → Node
  | mk l cs =>
    match cs.find? fun c => c.kind ≠ Kind.comment && c.label.isNamed with
    | some (mk l' cs') => mk { l' with role := l.role } cs'
    | none => mk l cs

/-- A tree with the parentheses at the end of a path opened. -/
def openAt : List Nat → Node → Node
  | [], n => n.opened
  | i :: path, mk l cs => mk l (cs.modify i (openAt path))

/-- The node at the end of a second path when the parentheses at the end of the first one are opened.
It stays as it is unless the first path leads on from there. -/
def openBelow : List Nat → List Nat → Node → Node
  | path, [], n => n.openAt path
  | [], _ :: _, n => n
  | i :: path, j :: here, n => if i = j then openBelow path here n else n

theorem openBelow_self (path : List Nat) (n : Node) : openBelow path path n = n.opened := by
  induction path with
  | nil => rfl
  | cons i path ih => rw [openBelow, if_pos rfl, ih]

theorem openBelow_append (path : List Nat) {rest : List Nat} (h : rest ≠ []) (n : Node) :
    openBelow path (path ++ rest) n = n := by
  induction path with
  | nil =>
    cases rest with
    | nil => exact absurd rfl h
    | cons j rest => rfl
  | cons i path ih => rw [List.cons_append, openBelow, if_pos rfl, ih]

theorem label_openAt {path : List Nat} (h : path ≠ []) (n : Node) : (n.openAt path).label = n.label := by
  cases path with
  | nil => exact absurd rfl h
  | cons i path =>
    cases n with
    | mk l cs => rfl

theorem label_openBelow {path here : List Nat} (h : here ≠ path) (n : Node) :
    (openBelow path here n).label = n.label := by
  induction here generalizing path with
  | nil =>
    rw [openBelow]
    exact label_openAt h.symm n
  | cons j here ih =>
    cases path with
    | nil => rfl
    | cons i path =>
      rw [openBelow]
      split_ifs with hij
      · refine ih fun heq => h ?_
        rw [hij, heq]
      · rfl

/-- Opening parentheses further down is opening them in one of the children. -/
theorem getElem?_children_openBelow {path here : List Nat} (h : here ≠ path) (n : Node) (j : Nat) :
    (openBelow path here n).children[j]? =
      n.children[j]?.map (openBelow path (here ++ [j])) := by
  induction here generalizing path with
  | nil =>
    cases path with
    | nil => exact absurd rfl h
    | cons i path =>
      cases n with
      | mk l cs =>
        rw [openBelow, openAt, children, children, List.getElem?_modify]
        cases cs[j]? with
        | none => rfl
        | some c => by_cases hij : i = j <;> simp [openBelow, hij]
  | cons k here ih =>
    cases path with
    | nil =>
      rw [openBelow]
      cases n.children[j]? with
      | none => rfl
      | some c => rfl
    | cons i path =>
      rw [List.cons_append, openBelow]
      split_ifs with hik
      · rw [ih fun heq => h (by rw [hik, heq])]
        refine Option.map_congr fun c _ => ?_
        rw [openBelow, if_pos hik]
      · cases n.children[j]? with
        | none => rfl
        | some c => simp [openBelow, hik]

end Node

namespace Place

variable {path : List Nat}

/-- Where a place is when the parentheses at the end of a path are opened. What stands in them takes
their place. -/
def openAt (path : List Nat) : Place → Place
  | root n => root (n.openAt path)
  | child p i n =>
    if p.path = path then p.openAt path
    else child (p.openAt path) i (Node.openBelow path (p.path ++ [i]) n)

theorem openAt_of_mem_children {p c : Place} (h : c ∈ p.children) (hpath : p.path = path) :
    c.openAt path = p.openAt path := by
  obtain ⟨i, n, rfl, _⟩ := childrenFrom_spec h
  rw [openAt, if_pos hpath]

/-- Whether a place is not directly inside the parentheses at the end of a path. -/
def IsOutside (path : List Nat) (q : Place) : Prop := ∀ p, q.parent? = some p → p.path ≠ path

theorem node_openAt {q : Place} (h : q.IsOutside path) :
    (q.openAt path).node = Node.openBelow path q.path q.node := by
  cases q with
  | root n =>
    rw [Place.path, Node.openBelow]
    rfl
  | child p i n =>
    rw [openAt, if_neg (h p rfl)]
    rfl

theorem isOutside_of_path_eq {q : Place} (h : q.path = path) : q.IsOutside path := by
  intro p hparent hpath
  cases q with
  | root n => cases hparent
  | child p' i n =>
    cases hparent
    rw [← h, Place.path] at hpath
    simpa using congrArg List.length hpath

theorem children_openAt {q : Place} (hq : q.IsOutside path) (hpath : q.path ≠ path) :
    (q.openAt path).children = q.children.map (openAt path) := by
  rw [children_eq, children_eq, List.map_map, node_openAt hq]
  refine List.ext_getElem? fun j => ?_
  simp only [List.getElem?_map, List.getElem?_zipIdx, Node.getElem?_children_openBelow hpath,
    Option.map_map]
  refine Option.map_congr fun n _ => ?_
  simp [openAt, hpath]

theorem path_of_mem_children {p c : Place} (h : c ∈ p.children) : ∃ i, c.path = p.path ++ [i] := by
  obtain ⟨i, n, rfl, _⟩ := childrenFrom_spec h
  exact ⟨i, rfl⟩

theorem path_ne_of_mem_children {p c : Place} (h : c ∈ p.children) : c.path ≠ p.path := by
  obtain ⟨i, hi⟩ := path_of_mem_children h
  intro heq
  simpa [heq] using congrArg List.length hi

/-- What becomes of a place when the parentheses at the end of a path are opened. -/
def openFate (path : List Nat) (q : Place) : Fate :=
  if q.path = path then .opened
  else if q.parent?.any (·.path = path) ∧ ¬ (q.kind ≠ Kind.comment ∧ q.label.isNamed) then .dropped
  else .kept

theorem openFate_eq_opened_iff {q : Place} : openFate path q = .opened ↔ q.path = path := by
  unfold openFate
  split_ifs with h₁ h₂ <;> simp [h₁]

section Opening

variable {tree : Node} {p e : Place} (hp : p ∈ tree.places) (hparts : p.parts = [e])

include hparts in
/-- The expression inside comes to stand where the parentheses are. -/
theorem opened_node :
    p.node.opened = .mk { e.label with role := p.label.role } e.node.children := by
  have hfound : p.node.children.find? (fun c => c.kind ≠ Kind.comment && c.label.isNamed) =
      some e.node := by
    have hmap : p.node.children.filter (fun c => c.kind ≠ Kind.comment && c.label.isNamed) =
        p.parts.map node := by
      rw [← map_node_children, List.filter_map, parts_eq_filter]
      rfl
    rw [← List.head?_filter, hmap, hparts]
    rfl
  rcases hnode : p.node with ⟨l, cs⟩
  rw [hnode] at hfound
  have hlabel : p.label = l := by
    rw [label, hnode]
    rfl
  rw [Node.opened, show cs.find? _ = some e.node from hfound, hlabel, label]
  cases e.node
  rfl

include hparts in
theorem node_openAt_self :
    (p.openAt p.path).node = .mk { e.label with role := p.label.role } e.node.children := by
  rw [node_openAt (isOutside_of_path_eq rfl), Node.openBelow_self, opened_node hparts]

include hp in
theorem mem_children_of_parent_path {q : Place} (hq : q ∈ tree.places)
    (h : q.parent?.any (·.path = p.path)) : q ∈ p.children := by
  cases q with
  | root n => cases h
  | child r i n =>
    have hr : r ∈ tree.places := mem_places_of_mem_ancestors hq List.mem_cons_self
    have heq : r = p := eq_of_path_eq hr hp (by simpa [parent?] using h)
    subst heq
    exact mem_children_of_mem_places hq

include hp in
/-- A place that is kept lies outside the parentheses, or is the expression inside. -/
theorem kept_cases {q : Place} (hq : q ∈ tree.places) (h : openFate p.path q = .kept) :
    q.path ≠ p.path ∧ (q.IsOutside p.path ∨ q ∈ p.parts) := by
  unfold openFate at h
  split_ifs at h with hself hinside
  refine ⟨hself, ?_⟩
  by_cases hparent : q.parent?.any (·.path = p.path)
  · have hpart : q.kind ≠ Kind.comment ∧ q.label.isNamed := by
      by_contra hnot
      exact hinside ⟨hparent, hnot⟩
    exact .inr (mem_parts_iff.mpr ⟨mem_children_of_parent_path hp hq hparent, hpart⟩)
  · refine .inl fun r hr hpath => hparent ?_
    rw [hr]
    simpa using hpath

include hp in
theorem mem_of_dropped {q : Place} (hq : q ∈ tree.places) (h : openFate p.path q = .dropped) :
    q ∈ p.children ∧ ¬ (q.kind ≠ Kind.comment ∧ q.label.isNamed) := by
  unfold openFate at h
  split_ifs at h with hself hinside
  exact ⟨mem_children_of_parent_path hp hq hinside.1, hinside.2⟩

theorem openFate_of_mem_children {c : Place} (hc : c ∈ p.children) :
    openFate p.path c = if c.kind ≠ Kind.comment ∧ c.label.isNamed then .kept else .dropped := by
  rw [openFate, if_neg (path_ne_of_mem_children hc), parent?_of_mem_children hc]
  by_cases hpart : c.kind ≠ Kind.comment ∧ c.label.isNamed
  · rw [if_neg (fun h => h.2 hpart), if_pos hpart]
  · rw [if_pos ⟨by simp, hpart⟩, if_neg hpart]

include hparts in
theorem children_openAt_inner (he : e ∈ p.children) :
    (e.openAt p.path).children = e.children.map (openAt p.path) := by
  obtain ⟨k, hk⟩ := path_of_mem_children he
  rw [openAt_of_mem_children he rfl, children_eq, children_eq, List.map_map,
    node_openAt_self hparts, Node.children]
  refine List.map_congr_left fun entry _ => ?_
  have hsame : Node.openBelow p.path (e.path ++ [entry.2]) entry.1 = entry.1 := by
    rw [hk, List.append_assoc]
    exact Node.openBelow_append _ (by simp) _
  rw [Function.comp_apply, openAt, if_neg (path_ne_of_mem_children he), hsame,
    openAt_of_mem_children he rfl]

include hp hparts in
theorem label_openAt {q : Place} (hq : q ∈ tree.places) (h : openFate p.path q = .kept) :
    q.label = { (q.openAt p.path).label with role := q.label.role } := by
  obtain ⟨hself, hout | hpart⟩ := kept_cases hp hq h
  · rw [label, label, node_openAt hout, Node.label_openBelow hself]
  · rw [hparts, List.mem_singleton] at hpart
    subst hpart
    have he : q ∈ p.children := (mem_parts_iff.mp (hparts ▸ List.mem_singleton_self q)).1
    rw [openAt_of_mem_children he rfl, label, label, node_openAt_self hparts]
    rfl

include hp hparts in
theorem children_openAt_kept {q : Place} (hq : q ∈ tree.places) (h : openFate p.path q = .kept) :
    (q.openAt p.path).children =
      (q.children.filter (openFate p.path · ≠ .dropped)).map (openAt p.path) := by
  obtain ⟨hself, hcases⟩ := kept_cases hp hq h
  -- what is dropped has the parentheses for its parent, and these are not kept
  have hall : q.children.filter (openFate p.path · ≠ .dropped) = q.children := by
    rw [List.filter_eq_self]
    intro c hc
    rw [decide_eq_true_eq]
    intro hdropped
    have hct := mem_places_of_mem_children hq hc
    have hparent := parent?_of_mem_children (mem_of_dropped hp hct hdropped).1
    rw [parent?_of_mem_children hc, Option.some.injEq] at hparent
    exact hself (congrArg Place.path hparent)
  rw [hall]
  rcases hcases with hout | hpart
  · exact children_openAt hout hself
  · have he : q ∈ p.children := (mem_parts_iff.mp hpart).1
    rw [hparts, List.mem_singleton] at hpart
    subst hpart
    exact children_openAt_inner hparts he

end Opening

end Place

/-- Opening parentheses in the tree of a source. -/
def Source.trimParentheses (source : Source) {p : Place} (hp : p ∈ source.tree.places)
    (hopenable : p.IsOpenable) :
    Trimming source { source with tree := source.tree.openAt p.path } where
  path_eq := rfl
  text_eq := rfl
  fate := Place.openFate p.path
  place := Place.openAt p.path
  fate_root := by
    unfold Place.openFate
    split_ifs with hself hinside
    · decide
    · exact absurd hinside.1 (by simp [Place.parent?])
    · decide
  place_root := rfl
  label_eq q hq hkept := by
    obtain ⟨e, hparts, _⟩ := hopenable.inner
    exact Place.label_openAt hp hparts hq hkept
  children_eq q hq hkept := by
    obtain ⟨e, hparts, _⟩ := hopenable.inner
    exact Place.children_openAt_kept hp hparts hq hkept
  role_eq q hq hkept c hc := by
    obtain ⟨e, hparts, _⟩ := hopenable.inner
    have hct := Place.mem_places_of_mem_children hq hc
    have hself := (Place.kept_cases hp hq hkept).1
    have hout : c.IsOutside p.path := by
      intro r hr hpath
      rw [Place.parent?_of_mem_children hc, Option.some.injEq] at hr
      exact hself (hr ▸ hpath)
    rw [if_neg fun hdropped => ?_]
    · by_cases hcp : c.path = p.path
      · have heq : c = p := Place.eq_of_path_eq hct hp hcp
        rw [heq, Place.label, Place.node_openAt_self hparts]
        rfl
      · rw [Place.label, Place.label, Place.node_openAt hout, Node.label_openBelow hcp]
    · have hparent := Place.parent?_of_mem_children (Place.mem_of_dropped hp hct hdropped).1
      exact hout p hparent rfl
  trivia q hq hdropped := by
    obtain ⟨hchild, hnot⟩ := Place.mem_of_dropped hp hq hdropped
    refine hopenable.trivia q hchild fun hnamed => ?_
    by_contra hkind
    exact hnot ⟨hkind, hnamed⟩
  opened q hq hopened := by
    have heq : q = p :=
      Place.eq_of_path_eq hq hp (Place.openFate_eq_opened_iff.mp hopened)
    subst heq
    obtain ⟨e, hparts, _⟩ := hopenable.inner
    obtain ⟨he, hpart⟩ := Place.mem_parts_iff.mp (hparts ▸ List.mem_singleton_self e)
    refine ⟨hopenable, e, hparts, ?_, Place.openAt_of_mem_children he rfl, ?_⟩
    · rw [Place.openFate_of_mem_children he, if_pos hpart]
    · rw [← hparts, Place.parts_eq_filter]
      refine List.filter_congr fun c hc => ?_
      rw [Place.openFate_of_mem_children hc]
      by_cases hcp : c.kind ≠ Kind.comment ∧ c.label.isNamed
      · simp [hcp]
      · rw [if_neg hcp]
        simpa using hcp

end QueryLint.Code

namespace QueryLint.Lint

open QueryLint.Code QueryLint.Rule

/-- A finding without the texts that it suggests. -/
def withoutTexts (f : Finding) : Finding :=
  { f with suggestions := f.suggestions.map fun s => { s with edit := { s.edit with text := "" } } }

section Parentheses

variable {source : Source} {p : Place} (hp : p ∈ source.tree.places) (hopenable : p.IsOpenable)

theorem isView_trimParentheses : (source.trimParentheses hp hopenable).IsView withoutTexts := by
  refine ⟨fun _ => rfl, fun _ => rfl, fun _ _ => rfl, fun info severity wait q accessor _ => ?_⟩
  simp only [withoutTexts, Report.toFinding, Trimming.moved, PreferFind.waitReport, List.map_cons,
    List.map_nil]

include hp hopenable in
/-- Opening parentheses leaves all other nodes in place, with their kinds and ranges, and each rule
reports the same nodes as before. With any selection of rules, findings differ in the suggested texts
alone. -/
theorem reports_openAt :
    ({ source with tree := source.tree.openAt p.path } : Source).tree.places =
      (source.tree.places.filter (Place.openFate p.path · = .kept)).map (Place.openAt p.path) ∧
    (∀ q ∈ source.tree.places, Place.openFate p.path q = .kept →
      q.label = { (q.openAt p.path).label with role := q.label.role }) ∧
    (∀ rule ∈ registered,
      (∀ r ∈ (soloNotes source rule).reports, Place.openFate p.path r.place = .kept) ∧
      (soloNotes { source with tree := source.tree.openAt p.path } rule).reports.map (·.place) =
        (soloNotes source rule).reports.map (·.place.openAt p.path)) ∧
    ∀ config rules,
      (lintSource { source with tree := source.tree.openAt p.path } config rules).map
          (List.map withoutTexts) =
        (lintSource source config rules).map (List.map withoutTexts) := by
  refine ⟨(source.trimParentheses hp hopenable).places_eq,
    (source.trimParentheses hp hopenable).label_eq, fun rule hrule => ⟨fun r hr => ?_, ?_⟩,
    (isView_trimParentheses hp hopenable).map_lintSource⟩
  · have hkeeps : (source.trimParentheses hp hopenable).Keeps r.place :=
      Trimming.keeps_of_mem_reports hrule hr
    exact hkeeps.fate
  · have hview : (source.trimParentheses hp hopenable).Overlooks (·.place) := fun _ _ _ _ => rfl
    exact Trimming.map_reports hview hrule

end Parentheses

/-- `const p = (findByText()); (p).catch(f)` -/
def caught : Source where
  path := "a.js"
  text := "const p = (findByText()); (p).catch(f)"
  language := .javascript
  tree :=
    .named "program" 0 38 none [
      .named "lexical_declaration" 0 25 none [
        .token "const" 0 5 (some .kind),
        .named "variable_declarator" 6 24 none [
          .named "identifier" 6 7 (some .name) [], .token "=" 8 9,
          .named "parenthesized_expression" 10 24 (some .value) [
            .token "(" 10 11,
            .named "call_expression" 11 23 none [
              .named "identifier" 11 21 (some .function) [],
              .named "arguments" 21 23 (some .arguments) []],
            .token ")" 23 24]],
        .token ";" 24 25],
      .named "expression_statement" 26 38 none [
        .named "call_expression" 26 38 none [
          .named "member_expression" 26 35 (some .function) [
            .named "parenthesized_expression" 26 29 (some .object) [
              .token "(" 26 27, .named "identifier" 27 28 none [], .token ")" 28 29],
            .token "." 29 30,
            .named "property_identifier" 30 35 (some .property) []],
          .named "arguments" 35 38 (some .arguments) [
            .token "(" 35 36, .named "identifier" 36 37 none [], .token ")" 37 38]]]]

/-- The query in `caught`. -/
def caughtQuery : Query.CallSite :=
  ⟨caught.tree.placeAt 9, caught.tree.placeAt 9, caught.tree.placeAt 8⟩

/-- The promise in `caught` is kept in a variable, and no use of the variable handles it. -/
theorem unhandledSites_caught : AwaitQuery.unhandledSites caught = [caughtQuery] := by
  have hsuspects : caught.tree.places.flatMap (AwaitQuery.suspectsAt caught) = [caughtQuery] := rfl
  have hkept : Binding.declaredVariables caught (caught.tree.placeAt 3) =
      [Binding.variableOf caught (caught.tree.placeAt 3) (caught.tree.placeAt 0)
        (caught.tree.placeAt 4)] := rfl
  have hunhandled : AwaitQuery.isUnhandled caught caughtQuery := by
    have hdeclarator : caughtQuery.declarator? = some (caught.tree.placeAt 3) := rfl
    simp only [AwaitQuery.isUnhandled, hdeclarator, hkept, AwaitQuery.isLeftUnhandled,
      Binding.variableOf, Binding.variableOver, Binding.usesIn_eq]
    decide
  rw [AwaitQuery.unhandledSites, hsuspects, List.filter_cons_of_pos hunhandled, List.filter_nil]

/-- In `caught` the query is reported whether it stands in parentheses or not. -/
theorem reports_openAt_caught :
    (caught.tree.placeAt 6).IsOpenable ∧
      (soloNotes { caught with tree := caught.tree.openAt (caught.tree.placeAt 6).path }
        AwaitQuery.rule).reports.map (·.place.label) =
        [⟨"identifier", 11, 21, true, false, false, some .function⟩] := by
  have hopenable : (caught.tree.placeAt 6).IsOpenable :=
    { kind_eq := by decide
      isNamed := by decide
      inner := ⟨caught.tree.placeAt 8, rfl, by decide⟩
      trivia := by decide
      role := by decide
      noPattern := by decide
      noElement := by decide }
  obtain ⟨_, _, hrules, _⟩ := reports_openAt (caught.tree.placeAt_mem 6) hopenable
  have hplaces := congrArg (List.map Place.label)
    (hrules AwaitQuery.rule (by simp [registered])).2
  rw [List.map_map, List.map_map] at hplaces
  have hreports : (soloNotes caught AwaitQuery.rule).reports =
      [AwaitQuery.siteReport caught caughtQuery] := by
    simp only [soloNotes, AwaitQuery.soloWalk_rule, unhandledSites_caught, List.map_cons, List.map_nil]
  rw [hreports] at hplaces
  exact ⟨hopenable, hplaces.trans rfl⟩

end QueryLint.Lint
