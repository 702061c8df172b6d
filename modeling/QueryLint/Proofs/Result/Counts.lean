import Mathlib.Algebra.BigOperators.Group.List.Basic
import Mathlib.Algebra.Ring.Nat
import Mathlib.Data.Finset.Card
import QueryLint.Proofs.Related
import QueryLint.Result.Basic

/-!
# Counts of findings

Findings are counted in several ways: by severity and by rule in the data of a result, one finding after
the other, and by severity once more for the verdict. All of these agree. Each count is that of the
findings with its key, no key is counted twice, and none that occurs is left out, so the counts add up to
the number of findings whatever order they come in.
-/
namespace QueryLint.Result

/-- Whether counts are those of some items: each item has one count, which tells how often it occurs. -/
structure IsTally (counts : List (String × Nat)) (items : List String) : Prop where
  nodup : (counts.map (·.1)).Nodup
  lookup : ∀ s, counts.lookup s = if s ∈ items then some (items.count s) else none
  total : (counts.map (·.2)).sum = items.length

/-- The count of a text, zero if there is none. -/
def entry (counts : List (String × Nat)) (s : String) : Nat := (counts.lookup s).getD 0

variable {counts : List (String × Nat)} {items : List String}

theorem lookup_cons_eq (t s : String) (n : Nat) (rest : List (String × Nat)) :
    ((t, n) :: rest).lookup s = if s = t then some n else rest.lookup s := by
  by_cases h : s = t
  · simp [h]
  · rw [List.lookup_cons, beq_eq_false_iff_ne.mpr h, if_neg h]

theorem lookup_increment (counts : List (String × Nat)) (s t : String) :
    (increment counts s).lookup t =
      if t = s then some (entry counts s + 1) else counts.lookup t := by
  induction counts with
  | nil => simp [increment, lookup_cons_eq, entry]
  | cons c rest ih =>
    obtain ⟨k, n⟩ := c
    rw [increment]
    by_cases hk : k = s
    · subst hk
      by_cases ht : t = k <;> simp [lookup_cons_eq, entry, ht]
    · have hcount : entry ((k, n) :: rest) s = entry rest s := by
        rw [entry, lookup_cons_eq, if_neg (Ne.symm hk), entry]
      rw [if_neg hk, lookup_cons_eq, lookup_cons_eq, ih, hcount]
      by_cases ht : t = s
      · subst ht
        simp [Ne.symm hk]
      · simp [ht]

theorem map_fst_increment (counts : List (String × Nat)) (s : String) :
    (increment counts s).map (·.1) =
      if s ∈ counts.map (·.1) then counts.map (·.1) else counts.map (·.1) ++ [s] := by
  induction counts with
  | nil => rfl
  | cons c rest ih =>
    obtain ⟨k, n⟩ := c
    rw [increment]
    by_cases hk : k = s
    · subst hk
      simp
    · rw [if_neg hk, List.map_cons, ih]
      by_cases hs : s ∈ rest.map (·.1) <;> simp [hs, Ne.symm hk]

theorem sum_increment (counts : List (String × Nat)) (s : String) :
    ((increment counts s).map (·.2)).sum = (counts.map (·.2)).sum + 1 := by
  induction counts with
  | nil => rfl
  | cons c rest ih =>
    obtain ⟨k, n⟩ := c
    rw [increment]
    split_ifs with hk
    · simp only [List.map_cons, List.sum_cons]
      omega
    · simp only [List.map_cons, List.sum_cons, ih]
      omega

/-- Counting one more item goes on with a tally. -/
theorem IsTally.increment (h : IsTally counts items) (s : String) :
    IsTally (increment counts s) (items ++ [s]) where
  nodup := by
    rw [map_fst_increment]
    split_ifs with hs
    · exact h.nodup
    · exact List.nodup_append.mpr ⟨h.nodup, List.nodup_singleton s, by
        rintro a ha _ hb rfl
        cases List.mem_singleton.mp hb
        exact hs ha⟩
  lookup t := by
    have hcount : entry counts s = items.count s := by
      rw [entry, h.lookup]
      split_ifs with hs
      · rfl
      · exact (List.count_eq_zero_of_not_mem hs).symm
    rw [lookup_increment, hcount, h.lookup, List.count_append]
    by_cases ht : t = s
    · subst ht
      simp
    · simp [ht, Ne.symm ht]
  total := by rw [sum_increment, h.total, List.length_append, List.length_singleton]

/-- What is counted one after the other is a tally of all that was counted. -/
theorem isTally_foldl (h : IsTally counts items) (more : List String) :
    IsTally (more.foldl Result.increment counts) (items ++ more) := by
  induction more generalizing counts items with
  | nil => rwa [List.append_nil]
  | cons s more ih =>
    have hrest := ih (h.increment s)
    rwa [List.append_assoc] at hrest

theorem isTally_tally (items : List String) : IsTally (tally items) items :=
  @isTally_foldl [] [] ⟨List.nodup_nil, fun _ => rfl, rfl⟩ items

theorem IsTally.mem_iff (h : IsTally counts items) {c : String × Nat} :
    c ∈ counts ↔ c.1 ∈ items ∧ c.2 = items.count c.1 := by
  rw [← lookup_eq_some_iff_mem h.nodup, h.lookup]
  split_ifs with hs <;> simp [hs, eq_comm]

theorem IsTally.entry_eq (h : IsTally counts items) (s : String) :
    entry counts s = items.count s := by
  rw [entry, h.lookup]
  split_ifs with hs
  · rfl
  · exact (List.count_eq_zero_of_not_mem hs).symm

/-- Tallies of the same items in another order tell the same. -/
theorem IsTally.perm {counts' : List (String × Nat)} {items' : List String} (h : IsTally counts items)
    (h' : IsTally counts' items') (hitems : items'.Perm items) : counts'.Perm counts := by
  have hmem : ∀ c, c ∈ counts' ↔ c ∈ counts := by
    intro c
    rw [h.mem_iff, h'.mem_iff, hitems.mem_iff, hitems.count_eq]
  exact (List.perm_ext_iff_of_nodup h'.nodup.of_map h.nodup.of_map).mpr hmem

end QueryLint.Result

namespace QueryLint.LintResult

open QueryLint.Data QueryLint.Result
open QueryLint.Finding (Severity)

/-- Whether counts are those of findings by some key: each key that occurs has one count, which tells
how many findings have it. -/
structure Counts (counts : List (String × Nat)) (findings : List Finding) (key : Finding → String) :
    Prop where
  nodup : (counts.map (·.1)).Nodup
  entry : ∀ s n, (s, n) ∈ counts ↔ 0 < n ∧ n = findings.countP (key · = s)
  total : (counts.map (·.2)).sum = findings.length

theorem counts_of_isTally {counts : List (String × Nat)} {findings : List Finding}
    {key : Finding → String} (h : IsTally counts (findings.map key)) : Counts counts findings key where
  nodup := h.nodup
  entry s n := by
    have hcount : (findings.map key).count s = findings.countP (key · = s) := by
      rw [List.count_eq_countP, List.countP_map]
      rfl
    rw [h.mem_iff, ← hcount, ← List.count_pos_iff]
    exact and_congr_left fun heq => by rw [← heq]
  total := by rw [h.total, List.length_map]

/-- What the data of a result say: how many findings there are, how many of each severity and of each
rule, and how many files could not be linted. -/
structure Reads (v : Value) (total : Nat) (bySeverity byRule : List (String × Nat)) (files : Nat) :
    Prop where
  counts : (v.get? "summary").bind (·.get? "counts") = some
    (.object [("findings_total", .nat total), ("by_severity", countsValue bySeverity),
      ("by_rule", countsValue byRule)])
  files : (v.get? "summary").bind (·.get? "files_with_errors") = some (.nat files)

theorem filesWithErrors_eq (r : LintResult) :
    r.filesWithErrors = (r.errors.map (·.path)).toFinset.card := by
  have hsame : (r.errors.map (·.path)).toFinset = (r.errors.map (·.path)).eraseDups.toFinset := by
    ext path
    rw [List.mem_toFinset, List.mem_toFinset, List.mem_eraseDups]
  rw [hsame, List.toFinset_card_of_nodup (nodup_eraseDups _), filesWithErrors]

theorem reads_toValue (r : LintResult) :
    Reads r.toValue r.findings.length r.bySeverity r.byRule
      (r.errors.map (·.path)).toFinset.card := by
  rw [← filesWithErrors_eq]
  constructor <;> simp [toValue, Value.get?, Members.get?_cons]

/-- The count of a severity is that of its name. -/
theorem countOf_eq (r : LintResult) (severity : Severity) :
    r.countOf severity = entry r.bySeverity severity.name := by
  have hname : ∀ s : Severity, s.name = severity.name ↔ s = severity := fun s =>
    ⟨fun h => Option.some.inj (by rw [← Severity.ofName?_name, h, Severity.ofName?_name]),
      fun h => congrArg Severity.name h⟩
  rw [bySeverity, (isTally_tally _).entry_eq, countOf, List.count_eq_countP, List.countP_map]
  exact List.countP_congr fun f _ => by simp [hname]

theorem errorCount_add_warningCount {r : LintResult}
    (h : ∀ f ∈ r.findings, f.severity = .warn ∨ f.severity = .error) :
    r.errorCount + r.warningCount = r.findings.length := by
  have hwarn : r.warningCount = r.findings.countP fun f => ¬ f.severity = .error := by
    refine List.countP_congr fun f hf => ?_
    rcases h f hf with hs | hs <;> simp [hs]
  rw [errorCount, countOf, hwarn]
  simpa using (List.length_eq_countP_add_countP (fun f : Finding => f.severity = .error)).symm

/-- A lint command ends with a complaint if there are errors or more warnings than a limit allows, and
with none otherwise. -/
theorem toNat_verdict (r : LintResult) (limit : Option Int) :
    ((verdict r limit).1.toNat = 1 ↔
      0 < r.errorCount ∨ ∃ n, limit = some n ∧ 0 ≤ n ∧ n < r.warningCount) ∧
    ((verdict r limit).1.toNat = 1 ∨ (verdict r limit).1.toNat = 0) := by
  unfold verdict
  by_cases herror : r.errorCount = 0
  · cases limit with
    | none => simp [herror, ExitCode.toNat]
    | some n =>
      by_cases hlimit : 0 ≤ n ∧ n < r.warningCount <;>
        simp [herror, hlimit, ExitCode.toNat]
  · simp [herror, ExitCode.toNat, Nat.pos_of_ne_zero herror]

theorem verdict_congr {r r' : LintResult} (herror : r'.errorCount = r.errorCount)
    (hwarning : r'.warningCount = r.warningCount) (limit : Option Int) :
    verdict r' limit = verdict r limit := by
  unfold verdict
  rw [herror, hwarning]

/-- The data of a result, its counts and the verdict on it agree, and do not depend on the order of the
findings. -/
theorem counts_agree {r : LintResult}
    (h : ∀ f ∈ r.findings, f.severity = .warn ∨ f.severity = .error) (limit : Option Int) :
    ∃ bySeverity byRule,
      Reads r.toValue r.findings.length bySeverity byRule (r.errors.map (·.path)).toFinset.card ∧
      Counts bySeverity r.findings (·.severity.name) ∧ Counts byRule r.findings (·.ruleId) ∧
      r.errorCount = entry bySeverity "error" ∧ r.warningCount = entry bySeverity "warn" ∧
      r.errorCount + r.warningCount = r.findings.length ∧
      ((verdict r limit).1.toNat = 1 ↔ 0 < entry bySeverity "error" ∨
        ∃ n, limit = some n ∧ 0 ≤ n ∧ n < entry bySeverity "warn") ∧
      ((verdict r limit).1.toNat = 1 ∨ (verdict r limit).1.toNat = 0) ∧
      ∀ findings : List Finding, findings.Perm r.findings →
        (∃ bySeverity' byRule',
          Reads ({ r with findings }).toValue r.findings.length bySeverity' byRule'
            (r.errors.map (·.path)).toFinset.card ∧
          bySeverity'.Perm bySeverity ∧ byRule'.Perm byRule) ∧
        ({ r with findings }).errorCount = r.errorCount ∧
        ({ r with findings }).warningCount = r.warningCount ∧
        verdict { r with findings } limit = verdict r limit := by
  have herror := r.countOf_eq .error
  have hwarning := r.countOf_eq .warn
  obtain ⟨hcode, hcodes⟩ := toNat_verdict r limit
  refine ⟨r.bySeverity, r.byRule, r.reads_toValue, counts_of_isTally (isTally_tally _),
    counts_of_isTally (isTally_tally _), herror, hwarning, errorCount_add_warningCount h, ?_,
    hcodes, ?_⟩
  · rw [hcode, errorCount, warningCount, herror, hwarning]
    rfl
  · intro findings hperm
    have hcount : ∀ severity, ({ r with findings } : LintResult).countOf severity =
        r.countOf severity := fun severity => hperm.countP_eq _
    have hreads := ({ r with findings } : LintResult).reads_toValue
    rw [hperm.length_eq] at hreads
    refine ⟨⟨_, _, hreads, (isTally_tally _).perm (isTally_tally _) (hperm.map _),
      (isTally_tally _).perm (isTally_tally _) (hperm.map _)⟩, hcount _, hcount _, ?_⟩
    exact verdict_congr (hcount _) (hcount _) limit

/-- A finding of a rule at a severity, with nothing else to tell. -/
def bareFinding (ruleId : String) (severity : Severity) : Finding where
  id := ""
  ruleId := ruleId
  ruleType := .problem
  severity := severity
  messageId := ""
  message := ""
  location := ⟨"a.js", 1, 1, 1, 1⟩
  fingerprint := ""
  snippet := ""
  data := []
  suggestions := []

/-- Warnings of two rules in turn, and a file that two errors are told of. -/
def interleaved : LintResult where
  runId := "run"
  createdAt := "now"
  toolVersion := Result.toolVersion
  engineVersion := Result.engineVersion
  config := []
  filesScanned := 3
  findings := ["x", "y", "x", "y"].map (bareFinding · .warn)
  errors := [⟨"b.js", readError, "", 0⟩, ⟨"c.js", parseError, "", 1⟩, ⟨"b.js", ruleError, "", 0⟩]

/-- With a limit of three the four warnings are a complaint, whatever order they come in. -/
theorem counts_agree_interleaved :
    (∀ f ∈ interleaved.findings, f.severity = .warn ∨ f.severity = .error) ∧
      ∃ bySeverity byRule, Reads interleaved.toValue 4 bySeverity byRule 2 ∧
        entry bySeverity "error" = 0 ∧ entry bySeverity "warn" = 4 ∧ ("x", 2) ∈ byRule ∧
        (verdict interleaved (some 3)).1.toNat = 1 ∧
        (verdict { interleaved with findings := interleaved.findings.reverse } (some 3)).1.toNat = 1 := by
  have hseverity : ∀ f ∈ interleaved.findings, f.severity = .warn ∨ f.severity = .error := by decide
  obtain ⟨bySeverity, byRule, hreads, hsev, hrule, herror, hwarning, _, hcode, _, hperm⟩ :=
    counts_agree hseverity (some 3)
  obtain ⟨_, _, _, hverdict⟩ := hperm _ (List.reverse_perm interleaved.findings)
  have hwarn : entry bySeverity "warn" = 4 := hwarning.symm
  have hone : (verdict interleaved (some 3)).1.toNat = 1 :=
    hcode.mpr (.inr ⟨3, rfl, by decide, by rw [hwarn]; decide⟩)
  refine ⟨hseverity, bySeverity, byRule, hreads, herror.symm, hwarn,
    (hrule.entry "x" 2).mpr ⟨by decide, rfl⟩, hone, ?_⟩
  rw [hverdict, hone]

end QueryLint.LintResult
