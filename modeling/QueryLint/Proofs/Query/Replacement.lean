import QueryLint.Proofs.Query.Tokens

/-!
# What a replacement keeps

The call that is suggested in place of a wait keeps all that matters of a plain query, one that is called
by its name or as a member of an object with a list of arguments. It has in order what it copies of any other
query as well, but of such a query something that is not copied can be lost, as the sign of an optional
chain is.
-/
namespace QueryLint.Query

open QueryLint.Code QueryLint.Code.Place QueryLint.Text

variable {source : Source} {q : Place}

/-! ### Plain calls -/

/-- `p` is `e` inside parentheses, with nothing else in them but comments. -/
inductive Wraps : Place → Place → Prop where
  | self (e : Place) : Wraps e e
  | around {p inner e : Place} (hkind : p.kind = Kind.parenthesized) (hinner : inner ∈ p.children)
      (hothers : ∀ c ∈ p.children, c.kind = Kind.comment ∨ c = inner ∨
        c.kind ∈ ["(", ")"] ∧ c.node.children.isEmpty)
      (h : Wraps inner e) : Wraps p e

/-- A query that is called by its name alone or as a member of an object, with a list of arguments, and
with nothing else in the call but parentheses and comments. -/
structure IsPlain (source : Source) (q : Place) : Prop where
  call : ∀ c ∈ q.children, c.kind = Kind.comment ∨ q.childAs .function = some c ∨
    q.childAs .arguments = some c
  function : ∀ function ∈ q.childAs .function, ∀ callee ∈ q.callee?, Wraps function callee
  name : ∀ callee ∈ q.callee?, callee.isIdentifier → callee.node.children.isEmpty
  member : ∀ callee ∈ q.callee?, callee.isMember → ∀ c ∈ callee.children, c.kind = Kind.comment ∨
    callee.childAs .object = some c ∨ dot? source callee = some c ∨
    callee.childAs .property = some c ∧ c.node.children.isEmpty
  object : ∀ callee ∈ q.callee?, ∀ child ∈ callee.childAs .object, ∀ object ∈ callee.object?,
    Wraps child object
  list : ∀ list ∈ q.childAs .arguments, list.kind = Kind.arguments ∧ ¬ list.node.children.isEmpty ∧
    ∀ c ∈ list.children, c.kind = Kind.comment ∨ c ∈ list.parts ∨
      c.kind ∈ ["(", ",", ")"] ∧ c.node.children.isEmpty

theorem Wraps.mem_preorder {p e : Place} (h : Wraps p e) : e ∈ p.preorder := by
  induction h with
  | self e => exact mem_preorder_self e
  | around _ hinner _ _ ih => exact preorder_trans (mem_preorder_of_mem_children hinner) ih

/-- The tokens of an expression in parentheses are its own and the parentheses. -/
theorem Wraps.cases_tokens {p e t : Place} (h : Wraps p e) (ht : t ∈ p.tokens) :
    t ∈ e.tokens ∨ ∃ outer ∈ p.preorder, outer ∈ e.ancestors ∧ outer.kind = Kind.parenthesized ∧
      t.parent? = some outer ∧ t.kind ∈ ["(", ")"] := by
  induction h with
  | self e => exact .inl ht
  | @around p inner e hkind hinner hothers h ih =>
    obtain ⟨c, hc, hcomment, htc⟩ := exists_child_of_mem_tokens hinner ht
    rcases hothers c hc with hkind' | rfl | ⟨hsign, hleaf⟩
    · exact absurd hkind' hcomment
    · cases ih htc with
      | inl hin => exact .inl hin
      | inr hout =>
        obtain ⟨outer, houter, hrest⟩ := hout
        exact .inr ⟨outer, preorder_trans (mem_preorder_of_mem_children hc) houter, hrest⟩
    · cases eq_of_mem_tokens hleaf htc
      have habove : p ∈ e.ancestors :=
        mem_ancestors_of_mem_descendants (List.mem_flatMap.mpr ⟨inner, hinner, h.mem_preorder⟩)
      exact .inr ⟨p, mem_preorder_self p, habove, hkind, parent?_of_mem_children hc, hsign⟩

theorem mem_copiedTokens_of_argument {a t : Place} (ha : a ∈ q.callArguments) (ht : t ∈ a.tokens) :
    t ∈ copiedTokens source q :=
  List.mem_flatMap.mpr ⟨a, List.mem_append_right _ ha, ht⟩

theorem mem_copiedTokens_of_object {callee part t : Place} (hcallee : q.callee? = some callee)
    (hpart : part ∈ objectParts source callee) (ht : t ∈ part.tokens) :
    t ∈ copiedTokens source q := by
  refine List.mem_flatMap.mpr ⟨part, List.mem_append_left _ ?_, ht⟩
  rw [hcallee]
  exact List.mem_flatMap.mpr ⟨callee, List.mem_singleton_self callee, hpart⟩

theorem exists_callee_of_callsAtOnce {method : String} {caller : Option String}
    (h : CallsAtOnce source q method caller) : ∃ callee, q.callee? = some callee := by
  cases h with
  | bare hcallee _ _ => exact ⟨_, hcallee⟩
  | member hcallee _ _ _ _ => exact ⟨_, hcallee⟩

section Plain

variable (plain : IsPlain source q)
include plain

theorem IsPlain.list_tokens {list t : Place} (hcall : q.isCall)
    (hlist : q.childAs .arguments = some list) (ht : t ∈ list.tokens) :
    IsIncidental q t ∨ t ∈ copiedTokens source q := by
  obtain ⟨hkind, hfilled, hchildren⟩ := plain.list list hlist
  cases (mem_tokens_cases ht).2 with
  | inl hself => exact absurd hself.1 hfilled
  | inr hbelow =>
    obtain ⟨_, c, hc, htc⟩ := hbelow
    rcases hchildren c hc with hcomment | hpart | ⟨hsign, hleaf⟩
    · exact absurd hcomment (mem_tokens_cases htc).1
    · have hargument : c ∈ q.callArguments := by
        rw [callArguments, if_pos hcall, hlist]
        simpa only [if_pos hkind] using hpart
      exact .inr (mem_copiedTokens_of_argument hargument htc)
    · cases eq_of_mem_tokens hleaf htc
      exact .inl (.punctuation hlist hkind (parent?_of_mem_children hc) hsign)

theorem IsPlain.member_tokens {callee object t : Place} (hcallee : q.callee? = some callee)
    (hq : q ∈ callee.ancestors) (hobject : callee.object? = some object)
    (ht : t ∈ callee.tokens) : IsIncidental q t ∨ t ∈ copiedTokens source q := by
  have hmember := isMember_of_object? hobject
  obtain ⟨child, hchild, _⟩ := exists_child_of_object? hobject
  obtain ⟨c, hc, hcomment, htc⟩ :=
    exists_child_of_mem_tokens (mem_children_of_childAs hchild) ht
  rcases plain.member callee hcallee hmember c hc with hkind | hrole | hdot | ⟨hproperty, hleaf⟩
  · exact absurd hkind hcomment
  · cases (plain.object callee hcallee c hrole object hobject).cases_tokens htc with
    | inl hin =>
      have hpart : object ∈ objectParts source callee := by
        simp [objectParts, hobject]
      exact .inr (mem_copiedTokens_of_object hcallee hpart hin)
    | inr hout =>
      obtain ⟨outer, houter, habove, hkind, hparent, hsign⟩ := hout
      have hbelow : callee ∈ outer.ancestors :=
        mem_ancestors_of_mem_descendants (List.mem_flatMap.mpr ⟨c, hc, houter⟩)
      exact .inl (.parenthesis hcallee (.inr hobject) (ancestors_trans hq hbelow) habove hkind hparent
        hsign)
  · have hpart : c ∈ objectParts source callee := by
      simp [objectParts, hobject, hdot]
    exact .inr (mem_copiedTokens_of_object hcallee hpart htc)
  · cases eq_of_mem_tokens hleaf htc
    have hname : calledName? callee = some t := by
      have hother : ¬ callee.isIdentifier := by
        rw [isIdentifier, beq_iff_eq.mp hmember]
        decide
      rw [calledName?, if_neg hother, property?, if_pos hmember]
      exact hproperty
    exact .inl (.method hcallee hname)

theorem IsPlain.callee_tokens {method : String} {caller : Option String} {callee t : Place}
    (hcalls : CallsAtOnce source q method caller) (hcallee : q.callee? = some callee)
    (habove : q ∈ callee.ancestors) (ht : t ∈ callee.tokens) :
    IsIncidental q t ∨ t ∈ copiedTokens source q := by
  cases hcalls with
  | bare hcallee' hmethod _ =>
    cases hcallee.symm.trans hcallee'
    have hname := (nameOf?_eq_some_iff.mp hmethod).1
    cases eq_of_mem_tokens (plain.name callee hcallee hname) ht
    exact .inl (.method hcallee (if_pos hname))
  | member hcallee' hobject _ _ _ =>
    cases hcallee.symm.trans hcallee'
    exact plain.member_tokens hcallee habove hobject ht

/-- All tokens of a plain query are copied or incidental. -/
theorem IsPlain.incidental_or_copied {method : String} {caller : Option String}
    (hcalls : CallsAtOnce source q method caller) :
    ∀ t ∈ q.tokens, IsIncidental q t ∨ t ∈ copiedTokens source q := by
  intro t ht
  obtain ⟨callee, hcallee⟩ := exists_callee_of_callsAtOnce hcalls
  have hcall := isCall_of_callee? hcallee
  obtain ⟨f, hf, _, _⟩ := exists_function_of_callee? hcallee
  obtain ⟨c, hc, hcomment, htc⟩ := exists_child_of_mem_tokens hf ht
  rcases plain.call c hc with hkind | hfunction | hlist
  · exact absurd hkind hcomment
  · have hwraps := plain.function c hfunction callee hcallee
    have habove : q ∈ callee.ancestors :=
      mem_ancestors_of_mem_descendants (List.mem_flatMap.mpr ⟨c, hc, hwraps.mem_preorder⟩)
    cases hwraps.cases_tokens htc with
    | inl hin => exact plain.callee_tokens hcalls hcallee habove hin
    | inr hout =>
      obtain ⟨outer, houter, hinner, hkind, hparent, hsign⟩ := hout
      have hbelow : q ∈ outer.ancestors :=
        mem_ancestors_of_mem_descendants (List.mem_flatMap.mpr ⟨c, hc, houter⟩)
      exact .inl (.parenthesis hcallee (.inl rfl) hbelow hinner hkind hparent hsign)
  · exact plain.list_tokens hcall hlist htc

end Plain

/-! ### Replacements -/

/-- A wait waits for one call. -/
theorem WaitsFor.unique {wait q' : Place} (h : WaitsFor source wait q) (h' : WaitsFor source wait q') :
    q = q' := by
  obtain ⟨argument, callback, body, harguments, hcallback, _, _, hbody, hq, _⟩ := h.callback
  obtain ⟨argument', callback', body', harguments', hcallback', _, _, hbody', hq', _⟩ := h'.callback
  cases harguments.symm.trans harguments'
  cases hcallback.symm.trans hcallback'
  cases hbody.symm.trans hbody'
  exact Option.some.inj (hq.symm.trans hq')

/-- What is not incidental is kept if it is copied. -/
theorem keeps_of_copied (lines : LinesUp source) (hq : q ∈ source.tree.places) {method : String}
    {caller : Option String} (hcalls : CallsAtOnce source q method caller) {text : String}
    (hcopied : InOrder ((copiedTokens source q).map source.textOf) text)
    (hall : ∀ t ∈ q.tokens, IsIncidental q t ∨ t ∈ copiedTokens source q) : Keeps source q text := by
  intro ts hts hne
  obtain ⟨callee, hcallee⟩ := exists_callee_of_callsAtOnce hcalls
  have hsub : ts ⊆ copiedTokens source q := by
    intro t ht
    cases hall t (hts.subset ht) with
    | inl hincidental => exact absurd hincidental (hne t ht)
    | inr hmem => exact hmem
  have hordered := sublist_of_subset q.nodup_tokens hts (copiedTokens_sublist lines hq hcallee) hsub
  exact hcopied.sublist (hordered.map source.textOf)

/-- The replacement of a wait has in order whatever it copies of the query that is waited for, and nothing
is lost if the query has no other tokens but incidental ones. So it is with a plain query. -/
theorem replacement_keeps (spans : source.tree.Spans source.text) (nested : source.tree.Nested)
    (lines : LinesUp source) {wait : Place} (hwait : wait ∈ source.tree.places) {query : WaitedQuery}
    (h : waitedQuery? source wait = some query) (hwaits : WaitsFor source wait q) :
    ∃ text, query.replacement source = some text ∧
      InOrder ((copiedTokens source q).map source.textOf) text ∧
      ((∀ t ∈ q.tokens, IsIncidental q t ∨ t ∈ copiedTokens source q) → Keeps source q text) ∧
      (IsPlain source q → Keeps source q text) := by
  obtain ⟨q', hwaits', hcalls, harguments⟩ := waitedQuery?_eq_some_iff.mp h
  cases hwaits.unique hwaits'
  obtain ⟨v, _, a, _, _, _, _, _, _, htext⟩ := exists_replacement h
  rw [harguments] at htext
  have hq : q ∈ source.tree.places :=
    ((mem_descendants_iff hwait).mp (mem_descendants_of_waitsFor hwaits)).1
  have hcopied := inOrder_callText spans nested hq hcalls (v.2 ++ a)
  have hkeeps : (∀ t ∈ q.tokens, IsIncidental q t ∨ t ∈ copiedTokens source q) → Keeps source q _ :=
    keeps_of_copied lines hq hcalls hcopied
  exact ⟨_, htext, hcopied, hkeeps, fun plain => hkeeps (plain.incidental_or_copied hcalls)⟩

/-- `await waitFor(() => (screen).getByText(x, y));` -/
def memberWait : Source where
  path := "a.js"
  text := "await waitFor(() => (screen).getByText(x, y));"
  language := .javascript
  tree :=
    .named "program" 0 46 none [
      .named "expression_statement" 0 46 none [
        .named "await_expression" 0 45 none [
          .token "await" 0 5,
          .named "call_expression" 6 45 none [
            .named "identifier" 6 13 (some .function) [],
            .named "arguments" 13 45 (some .arguments) [
              .token "(" 13 14,
              .named "arrow_function" 14 44 none [
                .named "formal_parameters" 14 16 (some .parameters) [
                  .token "(" 14 15, .token ")" 15 16],
                .token "=>" 17 19,
                .named "call_expression" 20 44 (some .body) [
                  .named "member_expression" 20 38 (some .function) [
                    .named "parenthesized_expression" 20 28 (some .object) [
                      .token "(" 20 21,
                      .named "identifier" 21 27 none [],
                      .token ")" 27 28],
                    .token "." 28 29,
                    .named "property_identifier" 29 38 (some .property) []],
                  .named "arguments" 38 44 (some .arguments) [
                    .token "(" 38 39,
                    .named "identifier" 39 40 none [],
                    .token "," 40 41,
                    .named "identifier" 42 43 none [],
                    .token ")" 43 44]]],
              .token ")" 44 45]]],
        .token ";" 45 46]]

theorem laid_memberWait : memberWait.tree.Laid memberWait.text :=
  Node.laid_of_ascii (by decide) (by decide) (by decide)

theorem isPlain_memberWait : IsPlain memberWait (memberWait.tree.placeAt 13) := by
  have hfunction : (memberWait.tree.placeAt 13).childAs .function =
      some (memberWait.tree.placeAt 14) := rfl
  have hcallee : (memberWait.tree.placeAt 13).callee? = some (memberWait.tree.placeAt 14) := rfl
  have hchild : (memberWait.tree.placeAt 14).childAs .object = some (memberWait.tree.placeAt 15) := rfl
  have hobject : (memberWait.tree.placeAt 14).object? = some (memberWait.tree.placeAt 17) := rfl
  have hlist : (memberWait.tree.placeAt 13).childAs .arguments = some (memberWait.tree.placeAt 21) :=
    rfl
  constructor
  · exact List.forall_mem_cons.mpr ⟨.inr (.inl rfl), List.forall_mem_singleton.mpr (.inr (.inr rfl))⟩
  · intro f hf callee h
    cases hfunction.symm.trans hf
    cases hcallee.symm.trans h
    exact .self _
  · intro callee h hname
    cases hcallee.symm.trans h
    exact absurd hname (by decide)
  · intro callee h _
    cases hcallee.symm.trans h
    refine List.forall_mem_cons.mpr ⟨.inr (.inl rfl), ?_⟩
    refine List.forall_mem_cons.mpr ⟨.inr (.inr (.inl rfl)), ?_⟩
    exact List.forall_mem_singleton.mpr (.inr (.inr (.inr ⟨rfl, rfl⟩)))
  · intro callee h child hc object ho
    cases hcallee.symm.trans h
    cases hchild.symm.trans hc
    cases hobject.symm.trans ho
    apply Wraps.around rfl (.tail _ (.head _)) _ (.self _)
    refine List.forall_mem_cons.mpr ⟨.inr (.inr ⟨by decide, rfl⟩), ?_⟩
    refine List.forall_mem_cons.mpr ⟨.inr (.inl rfl), ?_⟩
    exact List.forall_mem_singleton.mpr (.inr (.inr ⟨by decide, rfl⟩))
  · intro list h
    cases hlist.symm.trans h
    refine ⟨rfl, by decide, ?_⟩
    refine List.forall_mem_cons.mpr ⟨.inr (.inr ⟨by decide, rfl⟩), ?_⟩
    refine List.forall_mem_cons.mpr ⟨.inr (.inl (.head _)), ?_⟩
    refine List.forall_mem_cons.mpr ⟨.inr (.inr ⟨by decide, rfl⟩), ?_⟩
    refine List.forall_mem_cons.mpr ⟨.inr (.inl (.tail _ (.head _))), ?_⟩
    exact List.forall_mem_singleton.mpr (.inr (.inr ⟨by decide, rfl⟩))

/-- In place of `memberWait` stands a call that keeps all that matters of its query. -/
theorem replacement_memberWait :
    memberWait.tree.Spans memberWait.text ∧ memberWait.tree.Nested ∧ LinesUp memberWait ∧
      ∃ query text, waitedQuery? memberWait (memberWait.tree.placeAt 4) = some query ∧
        query.replacement memberWait = some text ∧ text = "screen.findByText(x, y)" ∧
        Keeps memberWait (memberWait.tree.placeAt 13) text := by
  have hspans := laid_memberWait.spans
  have hnested := nested_of_laid laid_memberWait
  have hlines : LinesUp memberWait := ⟨by decide +kernel, by decide +kernel⟩
  have hwaits : WaitsFor memberWait (memberWait.tree.placeAt 4) (memberWait.tree.placeAt 13) :=
    { waiting := ⟨memberWait.tree.placeAt 5, "waitFor", rfl, rfl, by decide⟩
      callback := ⟨memberWait.tree.placeAt 8, memberWait.tree.placeAt 8, memberWait.tree.placeAt 13,
        rfl, rfl, rfl, rfl, rfl, rfl, rfl⟩ }
  have hquery : waitedQuery? memberWait (memberWait.tree.placeAt 4) =
      some ⟨"getByText", some "screen",
        [memberWait.tree.placeAt 23, memberWait.tree.placeAt 25]⟩ := rfl
  obtain ⟨text, htext, _, _, hkeeps⟩ :=
    replacement_keeps hspans hnested hlines (Node.placeAt_mem _ 4) hquery hwaits
  have hspelled : text = "screen.findByText(x, y)" := (Option.some.inj htext).symm
  exact ⟨hspans, hnested, hlines, _, text, hquery, htext, hspelled, hkeeps isPlain_memberWait⟩

/-- `await waitFor(() => screen?.getByText(x));` -/
def optionalWait : Source where
  path := "a.js"
  text := "await waitFor(() => screen?.getByText(x));"
  language := .javascript
  tree :=
    .named "program" 0 42 none [
      .named "expression_statement" 0 42 none [
        .named "await_expression" 0 41 none [
          .token "await" 0 5,
          .named "call_expression" 6 41 none [
            .named "identifier" 6 13 (some .function) [],
            .named "arguments" 13 41 (some .arguments) [
              .token "(" 13 14,
              .named "arrow_function" 14 40 none [
                .named "formal_parameters" 14 16 (some .parameters) [
                  .token "(" 14 15, .token ")" 15 16],
                .token "=>" 17 19,
                .named "call_expression" 20 40 (some .body) [
                  .named "member_expression" 20 37 (some .function) [
                    .named "identifier" 20 26 (some .object) [],
                    .named "optional_chain" 26 28 none [],
                    .named "property_identifier" 28 37 (some .property) []],
                  .named "arguments" 37 40 (some .arguments) [
                    .token "(" 37 38,
                    .named "identifier" 38 39 none [],
                    .token ")" 39 40]]],
              .token ")" 40 41]]],
        .token ";" 41 42]]

/-- The sign of the optional chain in `optionalWait` is lost. -/
theorem not_keeps_optionalWait :
    optionalWait.tree.Laid optionalWait.text ∧ LinesUp optionalWait ∧
      ∃ query text, waitedQuery? optionalWait (optionalWait.tree.placeAt 4) = some query ∧
        WaitsFor optionalWait (optionalWait.tree.placeAt 4) (optionalWait.tree.placeAt 13) ∧
        query.replacement optionalWait = some text ∧
        ¬ Keeps optionalWait (optionalWait.tree.placeAt 13) text := by
  have hlaid : optionalWait.tree.Laid optionalWait.text :=
    Node.laid_of_ascii (by decide +kernel) (by decide +kernel) (by decide +kernel)
  have hwaits : WaitsFor optionalWait (optionalWait.tree.placeAt 4) (optionalWait.tree.placeAt 13) :=
    { waiting := ⟨optionalWait.tree.placeAt 5, "waitFor", rfl, rfl, by decide⟩
      callback := ⟨optionalWait.tree.placeAt 8, optionalWait.tree.placeAt 8,
        optionalWait.tree.placeAt 13, rfl, rfl, rfl, rfl, rfl, rfl, rfl⟩ }
  have hquery : waitedQuery? optionalWait (optionalWait.tree.placeAt 4) =
      some ⟨"getByText", some "screen", [optionalWait.tree.placeAt 20]⟩ := rfl
  refine ⟨hlaid, ⟨by decide +kernel, by decide +kernel⟩, _, "screen.findByText(x)", hquery, hwaits,
    rfl, fun hkeeps => ?_⟩
  have htoken : [optionalWait.tree.placeAt 16].Sublist (optionalWait.tree.placeAt 13).tokens :=
    List.singleton_sublist.mpr (.tail _ (.head _))
  have hother : ¬ IsIncidental (optionalWait.tree.placeAt 13) (optionalWait.tree.placeAt 16) := by
    intro h
    cases h with
    | method hcallee hname =>
      cases hcallee
      have hkind := congrArg (Option.map Place.kind) hname
      exact absurd hkind (by decide +kernel)
    | parenthesis _ _ _ _ _ _ hkind => exact absurd hkind (by decide +kernel)
    | punctuation _ _ _ hkind => exact absurd hkind (by decide +kernel)
  have horder := hkeeps _ htoken (by simpa using hother)
  exact absurd horder.isInfix (by decide +kernel)

end QueryLint.Query
