import QueryLint.Proofs.Lint.Failure
import QueryLint.Proofs.Lint.Suggest
import QueryLint.Proofs.Result.Conformance

/-!
# Findings are proper

Every finding of a source comes from a report of a chosen rule, which is not off whatever the configuration
says, with lines and columns counted from one, a digest for a fingerprint, and an id of its own.
-/
namespace QueryLint.Lint

open QueryLint.Code QueryLint.Finding QueryLint.Rule QueryLint.Schema QueryLint.Text

variable {source : Source} {config : Config} {rules : Option (List String)} {findings : List Finding}

/-- A finding is that of a report of a chosen rule, with its position in its id. -/
theorem exists_report_of_mem_lintSource (h : lintSource source config rules = .ok findings)
    {f : Finding} (hf : f ∈ findings) :
    ∃ rule ∈ registered, ∃ severity, severity ≠ .off ∧ ∃ r ∈ (soloNotes source rule).reports, ∃ i,
      f = { r.toFinding rule.info severity source with
        id := findingId (r.toFinding rule.info severity source) i } := by
  rw [lintSource_eq] at h
  cases hchosen : choose config rules with
  | error e =>
    rw [hchosen] at h
    cases h
  | ok chosen =>
    rw [hchosen] at h
    cases h
    obtain ⟨⟨g, i⟩, hg, rfl⟩ := List.mem_map.mp hf
    have hg : g ∈ chosen.flatMap (findingsOf source) :=
      List.mem_mergeSort.mp (List.fst_mem_of_mem_zipIdx hg)
    obtain ⟨c, hc, hg⟩ := List.mem_flatMap.mp hg
    obtain ⟨r, hr, rfl⟩ := List.mem_map.mp hg
    obtain ⟨hregistered, hon⟩ := registered_and_on_of_choose hchosen c hc
    exact ⟨c.rule, hregistered, c.severity, hon, r, hr, i, rfl⟩

/-- What is suggested is suggested for waits. -/
theorem exists_wait_of_mem_soloNotes {rule : Rule} (h : rule ∈ registered) {r : Report}
    (hr : r ∈ (soloNotes source rule).reports) :
    ∀ s ∈ r.suggestions, ∃ w ∈ PreferFind.waits source, s.edit = waitEdit source w := by
  simp only [registered, List.mem_cons, List.not_mem_nil, or_false] at h
  rcases h with rfl | rfl
  · simp only [soloNotes, AwaitQuery.soloWalk_rule] at hr
    obtain ⟨site, _, rfl⟩ := List.mem_map.mp hr
    intro s hs
    cases hs
  · simp only [soloNotes, PreferFind.soloWalk_rule] at hr
    intro s hs
    have hedit := List.mem_map_of_mem hs (f := (·.edit))
    rw [suggestions_reportAt? (PreferFind.reportAt?_of_mem_waitReports hr),
      List.mem_singleton] at hedit
    have hwait := List.mem_map_of_mem hr (f := (·.place))
    rw [PreferFind.map_place_waitReports] at hwait
    exact ⟨r.place, hwait, hedit⟩

/-- The ranges of suggestions are those of nodes. -/
theorem edits_of_mem_soloNotes {rule : Rule} (h : rule ∈ registered) {r : Report}
    (hr : r ∈ (soloNotes source rule).reports) :
    ∀ s ∈ r.suggestions, 0 ≤ s.edit.start ∧ 0 ≤ s.edit.stop := by
  intro s hs
  obtain ⟨w, _, hedit⟩ := exists_wait_of_mem_soloNotes h hr s hs
  rw [hedit]
  exact ⟨Int.natCast_nonneg _, Int.natCast_nonneg _⟩

theorem findingId_ne_empty (f : Finding) (position : Nat) : findingId f position ≠ "" := by
  intro h
  have hchars := congrArg String.toList h
  simp [findingId] at hchars

theorem accepts_fingerprintOf (ruleId path symbol snippet : String) :
    fingerprintPattern.accepts (fingerprintOf ruleId path symbol snippet).toList := by
  rw [fingerprintOf, String.toList_append]
  exact accepts_fingerprintPattern (fun _ => isHexDigit_of_mem_sha256) (length_sha256 _)

/-- The findings of a source are fit to be shown, whatever rules are asked for. -/
theorem isProper_of_mem_lintSource (h : lintSource source config rules = .ok findings)
    {f : Finding} (hf : f ∈ findings) : f.IsProper := by
  obtain ⟨rule, hrule, severity, hon, r, hr, i, rfl⟩ := exists_report_of_mem_lintSource h hf
  refine ⟨findingId_ne_empty _ _, hon, ⟨?_, ?_, ?_, ?_⟩, accepts_fingerprintOf _ _ _ _,
    edits_of_mem_soloNotes hrule hr⟩
  all_goals
    simp only [Report.toFinding]
    omega

theorem path_of_mem_lintSource (h : lintSource source config rules = .ok findings)
    {f : Finding} (hf : f ∈ findings) : f.location.path = source.path := by
  obtain ⟨rule, _, severity, _, r, _, i, rfl⟩ := exists_report_of_mem_lintSource h hf
  rfl

end QueryLint.Lint
