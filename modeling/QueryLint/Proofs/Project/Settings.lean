import QueryLint.Proofs.Lint.Config
import QueryLint.Proofs.Project.Listing
import QueryLint.Proofs.Project.Validity

/-!
# Configurations in use

Of a configuration only the rules are checked when it is read. Where the patterns and the excluded names are
lists of texts and the size limit is an integer or null, nothing that the configuration is used for fails on
the type of a setting. An object gives such a configuration exactly if what it gives is of these types.
-/
namespace QueryLint.Project

open QueryLint.Code QueryLint.Data QueryLint.Files QueryLint.Lint

def IsTexts (v : Value) : Prop := ∃ items, v = .texts items

/-- An integer, or null where there is no limit. -/
def IsLimit (v : Value) : Prop := ∃ limit, v = limitValue limit

/-- A configuration whose settings are of the types that they are used as. -/
structure IsTyped (config : Config) : Prop where
  included : IsTexts config.included
  excluded : IsTexts config.excluded
  maxFileBytes : IsLimit config.maxFileBytes

/-- Members that are of the types that they are used as, where they are there. -/
structure GivesTyped (members : Members) : Prop where
  included : ∀ v ∈ members.get? "include", IsTexts v
  excluded : ∀ v ∈ members.get? "exclude", IsTexts v
  maxFileBytes : ∀ v ∈ members.get? "max_file_bytes", IsLimit v

/-- The files cannot be listed because of the type of a setting. An empty pattern has the right type. -/
def DiscoveryError.IsMistyped : DiscoveryError → Prop
  | .glob _ => False
  | .linkLoop _ => False
  | .unacceptable pattern => ∀ s, pattern ≠ .text s
  | _ => True

/-- A run fails because of the type of a setting, in use or in the result. -/
def ProjectError.IsMistyped : ProjectError → Prop
  | .discovery e => e.IsMistyped
  | .notIterable _ => True
  | .invalid _ => True
  | _ => False

/-- Nothing that a configuration is used for fails on the type of a setting. -/
structure IsUsable (config : Config) : Prop where
  shown : ∃ settings, config.toMembers = .ok settings
  listed : ∀ disk root e, discover disk root config.included config.excluded config.maxFileBytes =
    .error e → ¬ e.IsMistyped
  run : ∀ (grammar : Grammar) (disk : Disk) (task : Task), task.config = config →
    (∀ stamp, task.stamp = some stamp → stamp.runId ≠ "" ∧ stamp.createdAt ≠ "") →
    ∀ e, (runTask grammar disk task).outcome = .error e → ¬ e.IsMistyped

theorem isTyped_withGiven_iff {members : Members} {given : List (String × Finding.Severity)} :
    IsTyped (Config.withGiven members given) ↔ GivesTyped members := by
  have hgetD : ∀ {P : Value → Prop} {v : Option Value} {d : Value}, P d →
      (P (v.getD d) ↔ ∀ w ∈ v, P w) := by
    intro P v d hd
    cases v <;> simp [hd]
  have hincluded : IsTexts Config.default.included := ⟨defaultPatterns, rfl⟩
  have hexcluded : IsTexts Config.default.excluded := ⟨[], rfl⟩
  have hlimit : IsLimit Config.default.maxFileBytes := ⟨some 2000000, rfl⟩
  exact ⟨fun h => ⟨(hgetD hincluded).mp h.included, (hgetD hexcluded).mp h.excluded,
    (hgetD hlimit).mp h.maxFileBytes⟩, fun h => ⟨(hgetD hincluded).mpr h.included,
    (hgetD hexcluded).mpr h.excluded, (hgetD hlimit).mpr h.maxFileBytes⟩⟩

section Errors

variable {disk : Disk} {root p : FilePath} {e : DiscoveryError}

theorem not_isMistyped_of_globPaths {s : String} (h : globPaths disk root (.text s) = .error e) :
    ¬ e.IsMistyped := by
  rcases bind_eq_error_iff.mp h with h | ⟨_, _, h⟩
  · unfold globOf at h
    split at h
    · cases h
      exact fun hmistyped => hmistyped s rfl
    · obtain ⟨_, _, rfl⟩ := mapError_eq_error_iff.mp h
      exact id
  · cases h

theorem not_isMistyped_of_candidate? {excluded : List String} {limit : Option Int}
    (h : candidate? disk root excluded (limitValue limit) p = .error e) : ¬ e.IsMistyped := by
  unfold candidate? at h
  split at h
  · cases h
  · split at h
    · split at h
      · cases h
      · rw [isTooLarge_limitValue, bind_eq_error_iff] at h
        rcases h with h | ⟨large, _, h⟩
        · cases h
        · cases large with
          | true => cases h
          | false =>
            rcases bind_eq_error_iff.mp h with h | ⟨_, _, h⟩
            · obtain ⟨_, _, rfl⟩ := mapError_eq_error_iff.mp h
              exact id
            · cases h
    · cases h

theorem exists_patternsOf_texts (patterns : List String) :
    ∃ texts : List String, patternsOf (.texts patterns) = .ok (texts.map .text) := by
  cases patterns with
  | nil => exact ⟨[fallbackPattern], rfl⟩
  | cons pattern patterns => exact ⟨_, patternsOf_texts (List.cons_ne_nil _ _)⟩

theorem not_isMistyped_of_discover {patterns names : List String} {limit : Option Int}
    (h : discover disk root (.texts patterns) (.texts names) (limitValue limit) = .error e) :
    ¬ e.IsMistyped := by
  unfold discover discoverBy at h
  split at h
  · split at h
    · rcases bind_eq_error_iff.mp h with h | ⟨_, _, h⟩
      · obtain ⟨_, _, rfl⟩ := mapError_eq_error_iff.mp h
        exact id
      · cases h
    · cases h
  · obtain ⟨texts, htexts⟩ := exists_patternsOf_texts patterns
    rw [excludedNames_texts, htexts] at h
    simp only [bind_eq_error_iff, Except.ok.injEq, exists_eq_left', reduceCtorEq, false_or] at h
    rcases h with h | ⟨_, _, h⟩
    · obtain ⟨pattern, hpattern, h | ⟨found, _, p, _, h⟩⟩ := exists_of_candidates_eq_error h
      · obtain ⟨s, _, rfl⟩ := List.mem_map.mp hpattern
        exact not_isMistyped_of_globPaths h
      · exact not_isMistyped_of_candidate? h
    · cases h

end Errors

/-- Settings of the right types are all that a configuration needs. -/
theorem IsTyped.isUsable {config : Config} (h : IsTyped config) : IsUsable config := by
  obtain ⟨⟨patterns, hincluded⟩, ⟨names, hexcluded⟩, limit, hlimit⟩ := h
  have hlisted : ∀ disk root e, discover disk root config.included config.excluded
      config.maxFileBytes = .error e → ¬ e.IsMistyped := by
    rw [hincluded, hexcluded, hlimit]
    exact fun disk root e => not_isMistyped_of_discover
  obtain ⟨settings, hsettings⟩ := exists_toMembers hincluded hexcluded
  refine ⟨⟨settings, hsettings⟩, hlisted, ?_⟩
  rintro grammar disk task rfl hstamp e hfails
  rw [outcome_runTask, bind_eq_error_iff] at hfails
  rcases hfails with hfails | ⟨files, _, hfails⟩
  · obtain ⟨e, he, rfl⟩ := mapError_eq_error_iff.mp hfails
    exact hlisted _ _ _ he
  · have hproper := isProper_resultOf grammar disk hstamp files settings
    simp only [hsettings, Except.mapError, bind, Except.bind, finished_of_isProper hproper] at hfails
    cases hwritten : written disk task (resultOf grammar disk task files settings) with
    | ok disk' =>
      rw [hwritten] at hfails
      cases hfails
    | error e =>
      rw [hwritten] at hfails
      cases hfails
      obtain ⟨error, rfl⟩ := exists_output_of_written hwritten
      exact id

/-- Every object is refused, because of its member for the rules, or gives a configuration, whatever members
under unknown keys there are. Nothing that the configuration is used for fails on the type of a setting if
the members are of the types that they are used as, and what the configuration is shown as gives one that is
shown as the same. -/
theorem ofMembers_usable (members : Members) :
    Config.ofMembers (members.filter fun m => Config.knownKeys.contains m.1) =
        Config.ofMembers members ∧
      ((∃ config, Config.ofMembers members = .ok config) ↔
        ∀ v, members.get? "rules" = some v → Config.IsRules v) ∧
      ∀ config, Config.ofMembers members = .ok config →
        (IsTyped config ↔ GivesTyped members) ∧ (IsTyped config → IsUsable config) ∧
          ∀ settings, config.toMembers = .ok settings →
            ∃ again, Config.ofMembers settings = .ok again ∧ again.toMembers = .ok settings := by
  refine ⟨Config.ofMembers_filter, Config.exists_ofMembers_iff, fun config hconfig => ⟨?_,
    IsTyped.isUsable, fun settings => Config.exists_ofMembers_toMembers hconfig⟩⟩
  obtain ⟨given, -, rfl⟩ := Config.ofMembers_eq_ok_iff.mp hconfig
  exact isTyped_withGiven_iff

/-- One rule is switched off, files may have any size, and a key is misspelt. -/
def looseMembers : Members :=
  [("exlude", .int 1), ("include", .texts ["*.test.js"]), ("max_file_bytes", .null),
   ("rules", .object [("prefer-find-by", .bool false)])]

theorem ofMembers_looseMembers : ∃ config, Config.ofMembers looseMembers = .ok config ∧
    IsTyped config ∧ IsUsable config ∧ ∃ settings again, config.toMembers = .ok settings ∧
      Config.ofMembers settings = .ok again ∧ again.toMembers = .ok settings := by
  obtain ⟨_, hreads, huse⟩ := ofMembers_usable looseMembers
  have hrules : ∀ v, looseMembers.get? "rules" = some v → Config.IsRules v := by
    rintro _ ⟨⟩
    refine .inr ⟨_, rfl, List.forall_mem_singleton.mpr ⟨⟨Rule.PreferFind.rule, ?_, rfl⟩, .off, ?_⟩⟩
    · simp [Rule.registered]
    · exact .inr ⟨rfl, rfl⟩
  obtain ⟨config, hconfig⟩ := hreads.mpr hrules
  obtain ⟨htyped, husable, hagain⟩ := huse config hconfig
  have hgiven : GivesTyped looseMembers := by
    refine ⟨?_, ?_, ?_⟩
    · rintro _ ⟨⟩
      exact ⟨["*.test.js"], rfl⟩
    · rintro _ ⟨⟩
    · rintro _ ⟨⟩
      exact ⟨none, rfl⟩
  have husable := husable (htyped.mpr hgiven)
  obtain ⟨settings, hsettings⟩ := husable.shown
  obtain ⟨again, hread, hshown⟩ := hagain settings hsettings
  exact ⟨config, hconfig, htyped.mpr hgiven, husable, settings, again, hsettings, hread, hshown⟩

/-- A number in the place of the patterns is taken, and is found out only in use. -/
theorem ofMembers_numberForPatterns :
    ∃ config, Config.ofMembers [("include", .int 5)] = .ok config ∧ ¬ IsTyped config ∧
      config.toMembers = .error ⟨"int"⟩ ∧ ¬ IsUsable config := by
  have hshown : (Config.withGiven [("include", .int 5)] []).toMembers = .error ⟨"int"⟩ := rfl
  refine ⟨_, Config.ofMembers_eq_ok_iff.mpr ⟨[], rfl, rfl⟩, ?_, hshown, ?_⟩
  · rintro ⟨⟨items, hitems⟩, _, _⟩
    cases hitems
  · rintro ⟨⟨settings, hsettings⟩, _, _⟩
    rw [hshown] at hsettings
    cases hsettings

end QueryLint.Project
