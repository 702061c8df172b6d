import QueryLint.Proofs.Result.Counts
import QueryLint.Proofs.Schema.Meaning
import QueryLint.Proofs.Text.Digest

/-!
# Results as the schema demands them

What the findings and errors of a result have to keep to, so that the result as data is as the schema
of results says: each part of the data meets the demands that are made of it, from locations up to the
whole.
-/
namespace QueryLint.Schema

open QueryLint.Data QueryLint.Finding QueryLint.Result

@[simp] theorem meetsAll_text (s : String) : MeetsAll (.text s) text := by
  simp only [MeetsAll, text, List.forall_mem_singleton]
  exact .type rfl

@[simp] theorem meetsAll_nonEmptyText_iff {s : String} :
    MeetsAll (.text s) nonEmptyText ↔ s ≠ "" := by
  simp only [MeetsAll, nonEmptyText, List.forall_mem_cons, List.not_mem_nil, false_implies,
    implies_true, and_true]
  constructor
  · rintro ⟨-, h⟩ rfl
    cases h with
    | nonEmpty h => exact h rfl
  · intro h
    exact ⟨.type rfl, .nonEmpty fun heq => h (Value.text.inj heq)⟩

@[simp] theorem meetsAll_oneOf_iff {s : String} {options : List String} :
    MeetsAll (.text s) [.oneOf options] ↔ s ∈ options := by
  simp only [MeetsAll, List.forall_mem_singleton]
  exact ⟨fun h => by cases h with | oneOf h => exact h, .oneOf⟩

@[simp] theorem meetsAll_const (s : String) : MeetsAll (.text s) [.const s] := by
  simp only [MeetsAll, List.forall_mem_singleton]
  exact .const

@[simp] theorem meetsAll_atLeast_iff {n i : Int} : MeetsAll (.int i) (atLeast n) ↔ n ≤ i := by
  have hlt : (Quantity.ratio i 1).lt (.ratio n 1) = decide (i < n) := by simp [Quantity.lt]
  simp only [MeetsAll, atLeast, List.forall_mem_cons, List.not_mem_nil, false_implies, implies_true,
    and_true]
  constructor
  · rintro ⟨-, h⟩
    cases h with
    | minimum h =>
      obtain ⟨b, hb⟩ | hle := h _ rfl
      · cases hb
      · simpa [hlt] using hle
  · intro h
    refine ⟨.type rfl, .minimum fun x hx => .inr ?_⟩
    cases hx
    simpa [hlt] using h

@[simp] theorem meetsAll_nat (n : Nat) : MeetsAll (.nat n) (atLeast 0) :=
  meetsAll_atLeast_iff.mpr (Int.natCast_nonneg n)

theorem meetsAll_object (ms : Members) : MeetsAll (.object ms) [.type .object] := by
  simp only [MeetsAll, List.forall_mem_singleton]
  exact .type rfl

/-- An object with certain members has them all, and each is as its key demands. -/
theorem meetsAll_record {keys : List String} {members : List (String × List Demand)} {ms : Members}
    (hkeys : ∀ k ∈ keys, k ∈ Members.keys ms)
    (hmembers : ∀ e ∈ ms, ∀ m ∈ members, m.1 = e.1 → MeetsAll e.2 m.2) :
    MeetsAll (.object ms) [.type .object, .required keys, .properties members] := by
  simp only [MeetsAll, List.forall_mem_cons, List.not_mem_nil, false_implies, implies_true, and_true]
  refine ⟨.type rfl, .required ?_, .properties ?_⟩
  · rintro _ ⟨⟩ k hk
    obtain ⟨e, he, rfl⟩ := List.mem_map.mp (hkeys k hk)
    rw [Members.get?, List.lookup_isSome_iff]
    exact ⟨e, he, by simp⟩
  · rintro _ ⟨⟩ m hm w hw
    obtain ⟨_, _, rfl, _⟩ := List.lookup_eq_some_iff.mp hw
    exact hmembers (m.1, w) (by simp) m hm rfl

/-- The same of an object that may have no other members. -/
theorem meetsAll_closedRecord {keys : List String} {members : List (String × List Demand)}
    {ms : Members} (hkeys : Members.keys ms = keys)
    (hmembers : ∀ e ∈ ms, ∀ m ∈ members, m.1 = e.1 → MeetsAll e.2 m.2) :
    MeetsAll (.object ms) [.type .object, .required keys, .closed keys, .properties members] := by
  have hrecord : MeetsAll (.object ms) [.type .object, .required keys, .properties members] :=
    meetsAll_record (fun k hk => hkeys ▸ hk) hmembers
  have hclosed : Meets (.object ms) (.closed keys) := by
    refine .closed ?_
    rintro _ ⟨⟩ k hk
    exact hkeys ▸ hk
  simp only [MeetsAll, List.forall_mem_cons, List.not_mem_nil, false_implies, implies_true,
    and_true] at hrecord ⊢
  exact ⟨hrecord.1, hrecord.2.1, hclosed, hrecord.2.2⟩

theorem meetsAll_listOf {α : Type} {demands : List Demand} {xs : List α} {toValue : α → Value}
    (h : ∀ x ∈ xs, MeetsAll (toValue x) demands) :
    MeetsAll (.list (xs.map toValue)) [.type .array, .items demands] := by
  simp only [MeetsAll, List.forall_mem_cons, List.not_mem_nil, false_implies, implies_true, and_true]
  refine ⟨.type rfl, .items ?_⟩
  rintro _ ⟨⟩ w hw
  obtain ⟨x, hx, rfl⟩ := List.mem_map.mp hw
  exact h x hx

end QueryLint.Schema

namespace QueryLint.Finding

open QueryLint.Data QueryLint.Schema

/-- Lines and columns count from one. -/
structure Location.IsProper (l : Location) : Prop where
  lineStart : 1 ≤ l.lineStart
  lineEnd : 1 ≤ l.lineEnd
  columnStart : 1 ≤ l.columnStart
  columnEnd : 1 ≤ l.columnEnd

/-- A finding that has an id, a severity that is not off, and numbers as the schema wants them. -/
structure IsProper (f : Finding) : Prop where
  id : f.id ≠ ""
  severity : f.severity ≠ .off
  location : f.location.IsProper
  fingerprint : fingerprintPattern.accepts f.fingerprint.toList
  edits : ∀ s ∈ f.suggestions, 0 ≤ s.edit.start ∧ 0 ≤ s.edit.stop

theorem Location.IsProper.meetsAll {l : Location} (h : l.IsProper) :
    MeetsAll l.toValue Schema.location := by
  refine meetsAll_record (by simp [Members.keys]) ?_
  simp [h.lineStart, h.lineEnd, h.columnStart, h.columnEnd]

theorem Suggestion.meetsAll {s : Suggestion} (h : 0 ≤ s.edit.start ∧ 0 ≤ s.edit.stop) :
    MeetsAll s.toValue Schema.suggestion := by
  have hedit : MeetsAll s.edit.toValue textEdit := by
    refine meetsAll_record (by simp [Members.keys]) ?_
    simp [h.1, h.2]
  refine meetsAll_record (by simp [Members.keys]) ?_
  simp [hedit]

theorem severityName_mem {severity : Severity} (h : severity ≠ .off) :
    severity.name ∈ ["warn", "error"] := by
  cases severity with
  | off => exact absurd rfl h
  | warn => decide
  | error => decide

theorem ruleTypeName_mem (t : RuleType) : t.name ∈ ["problem", "suggestion"] := by
  cases t <;> decide

theorem forall_mem_optional {α : Type} {c : Prop} [Decidable c] {x : α} {P : α → Prop} :
    (∀ e ∈ (if c then [] else [x]), P e) ↔ (¬ c → P x) := by
  split <;> simp [*]

theorem IsProper.meetsAll {f : Finding} (h : f.IsProper) : MeetsAll f.toValue Schema.finding := by
  have hfingerprint :
      MeetsAll (.text f.fingerprint) [.type .string, .pattern fingerprintPattern] := by
    simp only [MeetsAll, List.forall_mem_cons, List.not_mem_nil, false_implies, implies_true,
      and_true]
    refine ⟨.type rfl, .pattern ?_⟩
    rintro _ ⟨⟩
    exact h.fingerprint
  have hsuggestions : MeetsAll (.list (f.suggestions.map Suggestion.toValue))
      [.type .array, .items suggestion] :=
    meetsAll_listOf fun s hs => Suggestion.meetsAll (h.edits s hs)
  have hseverity := severityName_mem h.severity
  have htype := ruleTypeName_mem f.ruleType
  have hlocation := h.location.meetsAll
  have hdata := meetsAll_object f.data
  refine meetsAll_record (by simp [Members.keys]) ?_
  simp only [List.forall_mem_append, forall_mem_optional, List.forall_mem_cons, List.not_mem_nil,
    false_implies, implies_true, and_true]
  simp [-List.mem_cons, h.id, hseverity, htype, hlocation, hdata, hfingerprint, hsuggestions]

end QueryLint.Finding

namespace QueryLint.Result

open QueryLint.Data QueryLint.Schema

/-- The kinds of errors. -/
def errorKinds : List String := [parseError, readError, ruleError]

/-- An error of a known kind, at a line if at any. -/
structure FileError.IsProper (e : FileError) : Prop where
  kind : e.kind ∈ errorKinds
  line : 0 ≤ e.line

theorem FileError.IsProper.meetsAll {e : FileError} (h : e.IsProper) :
    MeetsAll e.toValue Schema.fileError := by
  have hkind : MeetsAll (.text e.kind) [.oneOf ["parse_error", "read_error", "rule_error"]] :=
    meetsAll_oneOf_iff.mpr h.kind
  refine meetsAll_record (by simp [Members.keys]) ?_
  simp [-meetsAll_oneOf_iff, hkind, h.line]

theorem meetsAll_tally {items : List String} {demands : List Demand}
    (h : ∀ s ∈ items, MeetsAll (.text s) demands) :
    MeetsAll (LintResult.countsValue (tally items))
      [.type .object, .keys demands, .members (atLeast 0)] := by
  simp only [MeetsAll, LintResult.countsValue, List.forall_mem_cons, List.not_mem_nil,
    false_implies, implies_true, and_true]
  refine ⟨.type rfl, .keys ?_, .members ?_⟩
  · rintro _ ⟨⟩ m hm
    obtain ⟨c, hc, rfl⟩ := List.mem_map.mp hm
    exact h c.1 ((isTally_tally items).mem_iff.mp hc).1
  · rintro _ ⟨⟩ m hm
    obtain ⟨c, _, rfl⟩ := List.mem_map.mp hm
    exact meetsAll_nat c.2

end QueryLint.Result

namespace QueryLint.LintResult

open QueryLint.Data QueryLint.Schema QueryLint.Result

/-- A result of a run that is known by something, with proper findings and errors. -/
structure IsProper (r : LintResult) : Prop where
  runId : r.runId ≠ ""
  createdAt : r.createdAt ≠ ""
  filesScanned : 0 ≤ r.filesScanned
  findings : ∀ f ∈ r.findings, f.IsProper
  errors : ∀ e ∈ r.errors, e.IsProper

variable {r : LintResult}

theorem IsProper.meetsAll_counts (h : r.IsProper) :
    MeetsAll
      (.object
        [("findings_total", .nat r.findings.length), ("by_severity", countsValue r.bySeverity),
         ("by_rule", countsValue r.byRule)]) counts := by
  have hseverities : ∀ s ∈ r.findings.map (·.severity.name), s ∈ ["warn", "error"] := by
    rintro _ hs
    obtain ⟨f, hf, rfl⟩ := List.mem_map.mp hs
    exact Finding.severityName_mem (h.findings f hf).severity
  have hbySeverity : MeetsAll (countsValue r.bySeverity)
      [.type .object, .keys [.oneOf ["warn", "error"]], .members (atLeast 0)] :=
    meetsAll_tally fun s hs => meetsAll_oneOf_iff.mpr (hseverities s hs)
  have hbyRule : MeetsAll (countsValue r.byRule) [.type .object, .members (atLeast 0)] := by
    have hkeys : MeetsAll (countsValue r.byRule) [.type .object, .keys [], .members (atLeast 0)] :=
      meetsAll_tally fun _ _ _ hd => absurd hd List.not_mem_nil
    exact fun d hd => hkeys d (by simp only [List.mem_cons] at hd ⊢; tauto)
  refine meetsAll_record (by simp [Members.keys]) ?_
  simp [hbySeverity, hbyRule]

/-- A proper result is as the schema of results demands. -/
theorem IsProper.meetsAll (h : r.IsProper) : MeetsAll r.toValue Schema.lintResult := by
  have hrun : MeetsAll
      (.object
        [("run_id", .text r.runId), ("created_at", .text r.createdAt),
         ("tool_version", .text r.toolVersion), ("engine_version", .text r.engineVersion),
         ("config", .object r.config)]) runInfo := by
    have hconfig := meetsAll_object r.config
    refine meetsAll_record (by simp [Members.keys]) ?_
    simp [h.runId, h.createdAt, hconfig]
  have hsummary : MeetsAll
      (.object
        [("files_scanned", .int r.filesScanned), ("files_with_errors", .nat r.filesWithErrors),
         ("counts", .object
          [("findings_total", .nat r.findings.length), ("by_severity", countsValue r.bySeverity),
           ("by_rule", countsValue r.byRule)])]) summary := by
    have hcounts := h.meetsAll_counts
    refine meetsAll_record (by simp [Members.keys]) ?_
    simp [h.filesScanned, hcounts]
  have hfindings : MeetsAll (.list (r.findings.map Finding.toValue))
      [.type .array, .items finding] :=
    meetsAll_listOf fun f hf => (h.findings f hf).meetsAll
  have herrors : MeetsAll (.list (r.errors.map FileError.toValue))
      [.type .array, .items fileError] :=
    meetsAll_listOf fun e he => (h.errors e he).meetsAll
  refine meetsAll_closedRecord rfl ?_
  simp [hrun, hsummary, hfindings, herrors]

end QueryLint.LintResult
