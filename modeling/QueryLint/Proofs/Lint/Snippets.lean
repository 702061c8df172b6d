import QueryLint.Proofs.Code.Spans
import QueryLint.Proofs.Code.WellFormed
import QueryLint.Proofs.Lint.Locations
import QueryLint.Proofs.Lint.Proper
import QueryLint.Proofs.Lint.Single
import QueryLint.Proofs.Text.Lines

/-!
# What a finding shows of its source

The snippet of a finding is to show the lines that its location names. The location counts line feeds, but
the snippet picks by number among the lines that end at any break. So a break of another sort, such as a
form feed, makes every later snippet show other lines than it should, or none, and the fingerprint with it.
Up to the first such break the snippet is what it should be, and holds what stands at the place.
-/
namespace QueryLint.Lint

open QueryLint.Code QueryLint.Code.Place QueryLint.Finding QueryLint.Rule QueryLint.Text

variable {source : Source} {p : Place}

/-- The location of a place. -/
def locationOf (source : Source) (p : Place) : Location where
  path := source.path
  lineStart := (source.startOf p).row + 1
  lineEnd := (source.stopOf p).row + 1
  columnStart := (source.startOf p).column + 1
  columnEnd := (source.stopOf p).column + 1

/-- The lines that the location of a place names, without blanks at their ends. -/
def linesOf (source : Source) (p : Place) : List Char :=
  namedLines source.text.toList (source.startOf p).row (source.stopOf p).row

/-- Whether a finding shows the lines of a place, shortened if they are long, and with them the place. -/
structure Shows (source : Source) (p : Place) (f : Finding) : Prop where
  snippet : f.snippet = String.ofList (shorten shownLimit (linesOf source p))
  whole : (linesOf source p).length ≤ shownLimit →
    joinReturns (trimChars (source.textOf p).toList) <:+: f.snippet.toList

/-- What stands at a place stands in the rows from its first to its last. -/
theorem textOf_infix_rows (spans : source.tree.Spans source.text) (hp : p ∈ source.tree.places) :
    (source.textOf p).toList <:+: ['\n'].intercalate (((rows source.text.toList).take
      ((source.stopOf p).row + 1)).drop (source.startOf p).row) := by
  obtain ⟨⟨front, rest, htext, hstart⟩, ⟨upTo, back, htext', hstop⟩⟩ := spans.boundary p hp
  have hrange := spans.range p hp
  have hfront : byteLength front = p.start := Int.natCast_inj.mp hstart
  have hupTo : byteLength upTo = p.stop := Int.natCast_inj.mp hstop
  obtain ⟨part, rfl⟩ := append_eq_of_byteLength_le (htext.symm.trans htext') (by omega)
  have hpart : source.textOf p = part := by
    apply eq_of_utf8_eq
    rw [Source.utf8_textOf spans hp, Source.data, htext', slice, utf8_append,
      List.take_left' (by rw [length_utf8, hupTo]), utf8_append,
      List.drop_left' (by rw [length_utf8, hfront])]
  have hfirst : (source.startOf p).row = front.toList.count '\n' := by
    rw [Source.startOf, ← hfront, htext, row_positionOf]
  have hlast : (source.stopOf p).row = (front.toList ++ part.toList).count '\n' := by
    rw [Source.stopOf, ← hupTo, htext', row_positionOf, String.toList_append]
  rw [hpart, hfirst, hlast, htext', String.toList_append, String.toList_append, List.append_assoc]
  exact infix_rows front.toList part.toList back.toList

/-- A finding that shows the named lines shows what stands at its place, if nothing is cut off. -/
theorem shows_of_snippet (spans : source.tree.Spans source.text) (hp : p ∈ source.tree.places)
    {f : Finding} (h : f.snippet = String.ofList (shorten shownLimit (linesOf source p))) :
    Shows source p f := by
  refine ⟨h, fun hlength => ?_⟩
  rw [h, String.toList_ofList, shorten, if_pos hlength]
  exact joinReturns_trimChars_infix (textOf_infix_rows spans hp)

/-- A finding is located at a place and shows the lines of the place, if there is no lone break up to the
end of the last of them. The lines that are shown are those that are named, whatever the place, exactly if
there is no lone break before the last character of the source that is not blank. -/
theorem lintSource_shows (spans : source.tree.Spans source.text) {config : Config}
    {rules : Option (List String)} {findings : List Finding}
    (h : lintSource source config rules = .ok findings) :
    (∀ f ∈ findings, ∃ p ∈ source.tree.places, f.location = locationOf source p ∧
      f.snippet = String.ofList (shorten shownLimit (shownLines source.text.toList
        (source.startOf p).row (source.stopOf p).row)) ∧
      (loneBreaks (through source.text.toList (source.stopOf p).row) = 0 → Shows source p f)) ∧
    ((∀ first last, shownLines source.text.toList first last =
        namedLines source.text.toList first last) ↔
      loneBreaks (source.text.toList.rdropWhile isBlank) = 0) := by
  refine ⟨fun f hf => ?_, shownLines_eq_namedLines_iff _⟩
  obtain ⟨rule, hrule, severity, _, r, hr, i, rfl⟩ := exists_report_of_mem_lintSource h hf
  have hplace := place_mem_places hrule hr
  refine ⟨r.place, hplace, rfl, rfl, fun hlone => shows_of_snippet spans hplace ?_⟩
  rw [linesOf, ← shownLines_eq_namedLines hlone]
  rfl

/-- A wait that ends a line after the one where it begins. -/
def brokenOff : Source where
  path := "a.js"
  text := "// a\r\nawait waitFor(() =>\r\n  getByRole())\r\n"
  language := .javascript
  tree :=
    .named "program" 0 43 none [
      .named "comment" 0 4 none [],
      .named "expression_statement" 6 41 none [
        .named "await_expression" 6 41 none [
          .named "call_expression" 12 41 none [
            .named "identifier" 12 19 (some .function) [],
            .named "arguments" 19 41 (some .arguments) [
              .named "arrow_function" 20 40 none [
                .named "formal_parameters" 20 22 (some .parameters) [],
                .named "call_expression" 29 40 (some .body) [
                  .named "identifier" 29 38 (some .function) [],
                  .named "arguments" 38 40 (some .arguments) []]]]]]]]

/-- The finding of `brokenOff` shows both lines of the wait. -/
theorem lintSource_brokenOff :
    brokenOff.tree.Spans brokenOff.text ∧
      ∃ f, lintSource brokenOff .default (some [PreferFind.info.id]) = .ok [f] ∧
        f.snippet = "await waitFor(() =>\n  getByRole())" := by
  have spans : brokenOff.tree.Spans brokenOff.text :=
    (Node.laid_of_ascii (by decide +kernel) (by decide +kernel) (by decide +kernel)).spans
  have hreports : (PreferFind.waitReports brokenOff).map (·.place) =
      [brokenOff.tree.placeAt 4] := rfl
  obtain ⟨r, hr, hplace⟩ := List.map_eq_singleton_iff.mp hreports
  obtain ⟨severity, _, hchoose⟩ := @choose_single .default (some [PreferFind.info.id])
    PreferFind.info.id PreferFind.rule (.inl rfl) rfl (by decide)
  have hok := lintSource_single hchoose (PreferFind.soloWalk_rule brokenOff)
  rw [hr, List.map_singleton, arrange_singleton] at hok
  obtain ⟨p, _, hlocation, _, hshows⟩ := (lintSource_shows spans hok).1 _ List.mem_cons_self
  have hfirst : (brokenOff.startOf p).row = 1 := by
    have hline := congrArg Location.lineStart hlocation
    simp only [locationOf, Report.toFinding, hplace] at hline
    have hrow : (brokenOff.startOf (brokenOff.tree.placeAt 4)).row = 1 := by decide +kernel
    omega
  have hlast : (brokenOff.stopOf p).row = 2 := by
    have hline := congrArg Location.lineEnd hlocation
    simp only [locationOf, Report.toFinding, hplace] at hline
    have hrow : (brokenOff.stopOf (brokenOff.tree.placeAt 4)).row = 2 := by decide +kernel
    omega
  have hlone : loneBreaks (through brokenOff.text.toList 2) = 0 := by decide +kernel
  rw [hlast] at hshows
  have hsnippet := (hshows hlone).snippet
  rw [linesOf, hfirst, hlast] at hsnippet
  have hlines : String.ofList (shorten shownLimit (namedLines brokenOff.text.toList 1 2)) =
      "await waitFor(() =>\n  getByRole())" := by decide +kernel
  exact ⟨spans, _, hok, hsnippet.trans hlines⟩

/-- A query in the second line, behind a comment that ends in a form feed. -/
def sectioned : Source where
  path := "a.test.js"
  text := "// section\x0c\nfindByText('x');\n"
  language := .javascript
  tree :=
    .named "program" 0 29 none [
      .named "comment" 0 11 none [],
      .named "expression_statement" 12 28 none [
        .named "call_expression" 12 27 none [
          .named "identifier" 12 22 (some .function) [],
          .named "arguments" 22 27 (some .arguments) [
            .token "(" 22 23,
            .named "string" 23 26 none [
              .token "'" 23 24, .named "string_fragment" 24 25 none [], .token "'" 25 26],
            .token ")" 26 27]],
        .token ";" 27 28]]

/-- By its line feeds the query of `sectioned` stands in the second line. By its breaks that line is
empty, and so is the snippet. -/
theorem not_shows_sectioned :
    sectioned.tree.Spans sectioned.text ∧
      ∃ f, lintSource sectioned .default (some [AwaitQuery.info.id]) = .ok [f] ∧
        f.location = ⟨"a.test.js", 2, 2, 1, 11⟩ ∧ f.snippet = "" ∧
        String.ofList (shorten shownLimit (namedLines sectioned.text.toList 1 1)) =
          "findByText('x');" := by
  have spans : sectioned.tree.Spans sectioned.text :=
    (Node.laid_of_ascii (by decide +kernel) (by decide +kernel) (by decide +kernel)).spans
  have hsites : AwaitQuery.unhandledSites sectioned =
      [⟨sectioned.tree.placeAt 4, sectioned.tree.placeAt 4, sectioned.tree.placeAt 3⟩] := rfl
  obtain ⟨severity, _, hchoose⟩ := @choose_single .default (some [AwaitQuery.info.id])
    AwaitQuery.info.id AwaitQuery.rule (.inl rfl) rfl (by decide)
  have hok := lintSource_single hchoose (AwaitQuery.soloWalk_rule sectioned)
  rw [hsites, List.map_singleton, List.map_singleton, arrange_singleton] at hok
  have hlocation : locationOf sectioned (sectioned.tree.placeAt 4) = ⟨"a.test.js", 2, 2, 1, 11⟩ := by
    decide +kernel
  have hsnippet : snippet sectioned 1 1 = "" := by decide +kernel
  exact ⟨spans, _, hok, hlocation, hsnippet, by decide +kernel⟩

end QueryLint.Lint
