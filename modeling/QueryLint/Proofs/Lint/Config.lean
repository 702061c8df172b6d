import Mathlib.Data.List.Nodup
import QueryLint.Lint.Config
import QueryLint.Proofs.Related

/-!
# Reading configurations

An object is a configuration unless its member for the rules is none. Members under other keys than the known
ones are overlooked. What a configuration is shown as is itself read as a configuration, which is shown in the
same way.
-/
namespace QueryLint.Lint.Config

open QueryLint.Data QueryLint.Text
open QueryLint.Finding (Severity)

/-- A value stands for a severity: its name does, and false stands for off. -/
def StandsFor (v : Value) (severity : Severity) : Prop :=
  v = .text severity.name ∨ v = .bool false ∧ severity = .off

/-- A value tells severities of rules: none, or one for each of some rules that there are. -/
def IsRules (v : Value) : Prop :=
  v = .null ∨ ∃ entries, v = .object entries ∧
    ∀ entry ∈ entries, (∃ rule ∈ Rule.registered, rule.info.id = entry.1) ∧
      ∃ severity, StandsFor entry.2 severity

theorem ofName?_eq_some_iff {s : String} {severity : Severity} :
    Severity.ofName? s = some severity ↔ s = severity.name := by
  constructor
  · intro h
    have hname := List.find?_some h
    simpa [eq_comm] using hname
  · rintro rfl
    exact Severity.ofName?_name severity

theorem severityOf?_eq_some_iff {v : Value} {severity : Severity} :
    severityOf? v = some severity ↔ StandsFor v severity := by
  cases v with
  | bool b => cases b <;> simp [severityOf?, StandsFor, eq_comm]
  | text s => simp [severityOf?, StandsFor, ofName?_eq_some_iff]
  | _ => simp [severityOf?, StandsFor]

theorem ofId?_isSome_iff {id : String} :
    (Rule.ofId? id).isSome ↔ ∃ rule ∈ Rule.registered, rule.info.id = id := by
  simp [Rule.ofId?]

theorem severityEntry_eq_ok_iff {entry : String × Value} {given : String × Severity} :
    severityEntry entry = .ok given ↔
      given.1 = entry.1 ∧ (∃ rule ∈ Rule.registered, rule.info.id = entry.1) ∧
        StandsFor entry.2 given.2 := by
  obtain ⟨id, severity⟩ := given
  rw [← ofId?_isSome_iff, ← severityOf?_eq_some_iff, severityEntry]
  cases hrule : Rule.ofId? entry.1 with
  | none => simp
  | some rule => cases hseverity : severityOf? entry.2 <;> simp [eq_comm]

/-- Severities are read from exactly the values that tell some. -/
theorem exists_givenSeverities_iff {v : Value} :
    (∃ given, givenSeverities v = .ok given) ↔ IsRules v := by
  cases v with
  | null => exact iff_of_true ⟨[], rfl⟩ (.inl rfl)
  | object entries =>
    have hentries : IsRules (.object entries) ↔ ∀ entry ∈ entries,
        ∃ given, severityEntry entry = .ok given := by
      simp only [IsRules, severityEntry_eq_ok_iff, reduceCtorEq, Value.object.injEq, false_or,
        exists_eq_left', Prod.exists]
      refine forall₂_congr fun entry _ => ?_
      simp
    simp only [givenSeverities, mapM_eq_ok_iff, hentries]
    refine ⟨?_, exists_forall₂_of_forall⟩
    rintro ⟨given, hgiven⟩ entry hentry
    obtain ⟨g, _, hg⟩ := exists_of_forall₂ hgiven.flip hentry
    exact ⟨g, hg⟩
  | _ => simp [givenSeverities, IsRules]

section Members

variable {members settings : Members} {config : Config}

/-- The configuration that members tell, where the rules have severities. -/
def withGiven (members : Members) (given : List (String × Severity)) : Config where
  included := (members.get? "include").getD default.included
  excluded := (members.get? "exclude").getD default.excluded
  severities := withSeverities given
  maxFileBytes := (members.get? "max_file_bytes").getD default.maxFileBytes

theorem ofMembers_eq (members : Members) : ofMembers members =
    (givenSeverities ((members.get? "rules").getD .null)).map (withGiven members) := by
  unfold ofMembers
  cases members.get? "rules" with
  | none => rfl
  | some v => cases hgiven : givenSeverities v <;> simp [hgiven, bind, Except.bind] <;> rfl

theorem ofMembers_eq_ok_iff : ofMembers members = .ok config ↔
    ∃ given, givenSeverities ((members.get? "rules").getD .null) = .ok given ∧
      withGiven members given = config := by
  rw [ofMembers_eq]
  cases givenSeverities ((members.get? "rules").getD .null) <;> simp [Except.map]

/-- An object is a configuration unless its member for the rules tells no severities. -/
theorem exists_ofMembers_iff :
    (∃ config, ofMembers members = .ok config) ↔ ∀ v, members.get? "rules" = some v → IsRules v := by
  have hrules : (∃ config, ofMembers members = .ok config) ↔
      IsRules ((members.get? "rules").getD .null) := by
    simp only [ofMembers_eq_ok_iff, ← exists_givenSeverities_iff]
    exact ⟨fun ⟨_, given, hgiven, _⟩ => ⟨given, hgiven⟩, fun ⟨given, hgiven⟩ => ⟨_, given, hgiven, rfl⟩⟩
  rw [hrules]
  cases members.get? "rules" with
  | none => simp [IsRules]
  | some v => simp

theorem get?_known {key : String} (h : key ∈ knownKeys) :
    Members.get? (members.filter fun m => knownKeys.contains m.1) key = members.get? key :=
  lookup_filter (List.contains_iff_mem.mpr h)

/-- Members under unknown keys are overlooked. -/
theorem ofMembers_filter :
    ofMembers (members.filter fun m => knownKeys.contains m.1) = ofMembers members := by
  have hrules : "rules" ∈ knownKeys := by decide
  have hincluded : "include" ∈ knownKeys := by decide
  have hexcluded : "exclude" ∈ knownKeys := by decide
  have hlimit : "max_file_bytes" ∈ knownKeys := by decide
  rw [ofMembers_eq, ofMembers_eq, get?_known hrules]
  refine congrArg (Except.map · _) (funext fun given => ?_)
  rw [withGiven, withGiven, get?_known hincluded, get?_known hexcluded, get?_known hlimit]

/-! ### What is shown is read again -/

theorem nodup_recommended : (recommended.map Prod.fst).Nodup := by
  have hids : Rule.Registry.current.publicIds.Nodup := by
    rw [Rule.Registry.current, sortTexts, (List.mergeSort_perm _ _).nodup_iff]
    decide
  rw [recommended, List.map_filterMap]
  refine hids.filterMap fun id id' key hkey hkey' => ?_
  simp only [Option.mem_def, Option.map_map, Option.map_eq_some_iff] at hkey hkey'
  obtain ⟨_, _, rfl⟩ := hkey
  obtain ⟨_, _, hsame⟩ := hkey'
  exact hsame.symm

theorem known_of_mem_recommended {entry : String × Severity} (h : entry ∈ recommended) :
    ∃ rule ∈ Rule.registered, rule.info.id = entry.1 := by
  rw [← ofId?_isSome_iff]
  obtain ⟨id, _, hentry⟩ := List.mem_filterMap.mp h
  obtain ⟨rule, hrule, rfl⟩ := Option.map_eq_some_iff.mp hentry
  rw [hrule]
  rfl

variable {given : List (String × Severity)}

theorem map_fst_withSeverities : (withSeverities given).map Prod.fst = recommended.map Prod.fst := by
  rw [withSeverities, List.map_map]
  rfl

/-- The severities of all rules, in any order, are in the place of the recommended ones what they are. -/
theorem withSeverities_of_perm {entries : List (String × Severity)}
    (h : entries.Perm (withSeverities given)) : withSeverities entries = withSeverities given := by
  have hkeys : (entries.map Prod.fst).Nodup := by
    rw [(h.map Prod.fst).nodup_iff, map_fst_withSeverities]
    exact nodup_recommended
  refine List.map_congr_left fun entry hentry => ?_
  have hmem : (entry.1, (given.lookup entry.1).getD entry.2) ∈ entries :=
    h.mem_iff.mpr (List.mem_map_of_mem hentry)
  rw [(lookup_eq_some_iff_mem hkeys).mpr hmem]
  rfl

theorem givenSeverities_shown {entries : List (String × Severity)}
    (h : entries.Perm (withSeverities given)) :
    givenSeverities (.object (entries.map fun entry => (entry.1, .text entry.2.name))) =
      .ok entries := by
  rw [givenSeverities, mapM_eq_ok_iff, List.forall₂_map_left_iff, List.forall₂_same]
  intro entry hentry
  obtain ⟨recommendation, hmem, hkey⟩ := List.mem_map.mp (h.mem_iff.mp hentry)
  refine severityEntry_eq_ok_iff.mpr ⟨rfl, ?_, .inl rfl⟩
  rw [← hkey]
  exact known_of_mem_recommended hmem

/-- What a configuration is shown as is read as one that is shown as the same. -/
theorem exists_ofMembers_toMembers (h : ofMembers members = .ok config)
    (hshown : config.toMembers = .ok settings) :
    ∃ again, ofMembers settings = .ok again ∧ again.toMembers = .ok settings := by
  obtain ⟨given, -, rfl⟩ := ofMembers_eq_ok_iff.mp h
  obtain ⟨included, hincluded, hshown⟩ := bind_eq_ok_iff.mp hshown
  obtain ⟨excluded, hexcluded, hshown⟩ := bind_eq_ok_iff.mp hshown
  cases hshown
  have hperm := List.mergeSort_perm (withSeverities given) fun a b => textLe a.1 b.1
  refine ⟨_, ofMembers_eq_ok_iff.mpr ⟨_, givenSeverities_shown hperm, rfl⟩, ?_⟩
  simp only [toMembers, withGiven, withSeverities_of_perm hperm]
  rfl

end Members

end QueryLint.Lint.Config
