import Mathlib.Data.List.Perm.Basic
import QueryLint.Proofs.Lint.StableOrder
import QueryLint.Proofs.Lint.Walk

/-!
# Linting with one rule

With a single rule the findings are the reports of that rule's own walk in another order, with ids.
-/
namespace QueryLint.Lint

open QueryLint.Code QueryLint.Rule
open QueryLint.Finding (Severity)

/-- Arranging findings changes their order and their ids only. -/
theorem arrange_perm (findings : List Finding) :
    ((arrange findings).map fun f => { f with id := "" }).Perm
      (findings.map fun f => { f with id := "" }) := by
  have hsorted := map_withoutId_arrange findings
  exact (List.Perm.of_eq hsorted).trans (List.mergeSort_perm _ _)

theorem arrange_singleton (f : Finding) : arrange [f] = [{ f with id := findingId f 0 }] := by
  rw [arrange, List.mergeSort_singleton]
  rfl

/-- The ids of the rules are those that are asked for, or else those that are enabled. -/
theorem choose_single {config : Config} {rules : Option (List String)} {id : String} {rule : Rule}
    (h : rules = some [id] ∨ rules = none ∧ config.enabledRules = [id])
    (hid : Rule.ofId? id = some rule) (hrec : rule.info.recommended ≠ .off) :
    ∃ severity, severity ≠ .off ∧ choose config rules = .ok [⟨rule, severity⟩] := by
  have hfrom : ∀ asked, (config.severityFor id = .off → asked = true) →
      ∃ severity, severity ≠ .off ∧ chooseFrom config asked [id] = .ok [⟨rule, severity⟩] := by
    intro asked hasked
    by_cases hoff : config.severityFor id = .off
    · refine ⟨rule.info.recommended, hrec, ?_⟩
      simp [chooseFrom, hid, hoff, hasked hoff, hrec, bind, Except.bind, pure, Except.pure]
    · refine ⟨config.severityFor id, hoff, ?_⟩
      simp [chooseFrom, hid, hoff, bind, Except.bind, pure, Except.pure]
  rcases h with rfl | ⟨rfl, henabled⟩
  · exact hfrom true fun _ => rfl
  · have hmem : id ∈ config.enabledRules := by
      rw [henabled]
      exact List.mem_cons_self
    have hon : config.severityFor id ≠ .off := of_decide_eq_true (List.mem_filter.mp hmem).2
    rw [choose, henabled]
    exact hfrom false fun hoff => absurd hoff hon

theorem lintSource_single {source : Source} {config : Config} {rules : Option (List String)}
    {c : Chosen} {own : Notes} (hc : choose config rules = .ok [c])
    (hw : soloWalk source c.rule = .ok own) :
    lintSource source config rules =
      .ok (arrange (own.reports.map fun r => r.toFinding c.rule.info c.severity source)) := by
  rw [lintSource_of_soloWalk hc (.cons hw .nil)]
  simp only [collect, List.zip_cons_cons, List.zip_nil_left, List.flatMap_cons, List.flatMap_nil,
    List.append_nil]

end QueryLint.Lint
