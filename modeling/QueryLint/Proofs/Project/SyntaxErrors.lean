import QueryLint.Lint.Text
import QueryLint.Proofs.Code.Errors
import QueryLint.Proofs.Code.WellFormed
import QueryLint.Proofs.Project.Outcomes

/-!
# Where a syntax error is said to be

A text with errors is not linted. What is said instead, of a text by itself and of a file in a run over a
project, is the line of its first error. Both callers take the line from the search for errors and would
say line zero if it came to nothing; where the marks of the tree are right this never happens, and the line
is that of the first node in pre-order that is an error.
-/
namespace QueryLint.Project

open QueryLint.Code QueryLint.Code.Source QueryLint.Lint QueryLint.Result

variable {source : Source}

/-- A text with errors is refused for the line of the first one. -/
theorem parseClean_of_hasErrors {grammar : Grammar} {text name : String}
    (hparse : Source.parse grammar text name none = .ok source) (h : source.hasErrors) :
    parseClean grammar text name = .error (.syntaxError name source.firstErrorLine) := by
  unfold parseClean
  rw [hparse]
  exact if_pos h

/-- A file with errors is noted for the line of the first one, and nothing is found in it. -/
theorem lint_of_hasErrors (t : Tally) (config : Config) (rules : Option (List String))
    (h : source.hasErrors) :
    (t.lint source config rules).findings = t.findings ∧
      (t.lint source config rules).errors =
        t.errors ++ [⟨source.path, parseError, "syntax error", source.firstErrorLine⟩] := by
  have houtcome : sourceOutcome source config rules =
      .error ⟨source.path, parseError, "syntax error", source.firstErrorLine⟩ := if_pos h
  obtain ⟨hfindings, herrors⟩ := lint_eq config rules .unlimited t source
  rw [hfindings, herrors, houtcome]
  exact ⟨List.append_nil _, rfl⟩

/-- The search for errors comes to the errors that lie in no other, each once and in pre-order, and to none
exactly if the source has no errors. If it has, the line that both callers report is that of the first
error of all. -/
theorem errors_reported (marks : source.tree.MarksExactly) :
    source.errors = source.tree.places.filter isOutermostError ∧ source.errors.Nodup ∧
      (source.errors = [] ↔ source.hasErrors = false) ∧
      (source.hasErrors → ∃ p, source.tree.places.find? isFaulty = some p ∧
        source.errors.head? = some p ∧ source.firstErrorLine = (source.startOf p).row + 1 ∧
        (∀ grammar text name, Source.parse grammar text name none = .ok source →
          parseClean grammar text name =
            .error (.syntaxError name ((source.startOf p).row + 1))) ∧
        ∀ (t : Tally) config rules, (t.lint source config rules).findings = t.findings ∧
          (t.lint source config rules).errors =
            t.errors ++ [⟨source.path, parseError, "syntax error",
              ((source.startOf p).row + 1 : Nat)⟩]) := by
  have hfilter := errors_eq_filter marks
  have hnodup : source.errors.Nodup := by
    rw [hfilter]
    exact (Place.nodup_preorder _).filter _
  refine ⟨hfilter, hnodup, errors_eq_nil_iff marks, fun h => ?_⟩
  obtain ⟨p, hfirst, hhead, hline⟩ := firstErrorLine_eq marks h
  refine ⟨p, hfirst, hhead, hline, fun grammar text name hparse => ?_, fun t config rules => ?_⟩
  · rw [← hline]
    exact parseClean_of_hasErrors hparse h
  · rw [← hline]
    exact lint_of_hasErrors t config rules h

/-- A call, and on the second line a declaration without a name. -/
def namelessConstant : Source where
  path := "c.test.tsx"
  text := "ok();\nconst = ;\n"
  language := .tsx
  tree :=
    .mk ⟨"program", 0, 16, true, true, false, none⟩ [
      .named "expression_statement" 0 5 none [
        .named "call_expression" 0 4 none [
          .named "identifier" 0 2 (some .function) [],
          .named "arguments" 2 4 (some .arguments) [.token "(" 2 3, .token ")" 3 4]],
        .token ";" 4 5],
      .mk ⟨"ERROR", 6, 13, true, true, false, none⟩ [.token "const" 6 11, .token "=" 12 13],
      .named "empty_statement" 14 15 none [.token ";" 14 15]]

/-- The constant without a name is reported on line 2. -/
theorem errors_reported_namelessConstant :
    namelessConstant.tree.MarksExactly ∧ namelessConstant.hasErrors ∧
      namelessConstant.firstErrorLine = 2 ∧
      parseClean (fun _ _ => namelessConstant.tree) namelessConstant.text "c.test.tsx" =
        .error (.syntaxError "c.test.tsx" 2) := by
  have hmarks : namelessConstant.tree.MarksExactly := by decide
  have herrors : namelessConstant.hasErrors := rfl
  have htwo : namelessConstant.firstErrorLine = 2 := by
    rw [firstErrorLine, errors_eq_search]
    decide
  obtain ⟨_, _, _, hreported⟩ := errors_reported hmarks
  obtain ⟨p, _, _, hline, htext, _⟩ := hreported herrors
  rw [← hline, htwo] at htext
  exact ⟨hmarks, herrors, htwo, htext _ _ _ rfl⟩

end QueryLint.Project
