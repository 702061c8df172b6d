import QueryLint.Code.Trees
import QueryLint.Proofs.Lint.Proper
import QueryLint.Proofs.Project.Discovery
import QueryLint.Proofs.Project.Outcomes

/-!
# Results of runs are valid

Each file adds proper findings or one proper error to a run, so that the result of a run is always as
its schema demands. A run may fail to find its files or to write the result out, but never over the
result itself.
-/
namespace QueryLint.Project

open QueryLint.Code QueryLint.Data QueryLint.Files QueryLint.Lint QueryLint.Result

/-- What a file comes to is fit to be shown. -/
def FileOutcome.IsProper : FileOutcome → Prop
  | .ok findings => ∀ f ∈ findings, f.IsProper
  | .error e => e.IsProper

theorem isProper_sourceOutcome (source : Source) (config : Config) (rules : Option (List String))
    (limits : Limits) : (sourceOutcome source config rules limits).IsProper := by
  unfold sourceOutcome
  split
  · exact ⟨by simp [errorKinds], Int.natCast_nonneg _⟩
  · cases hlint : lintSource source config rules limits with
    | ok findings => exact fun f hf => isProper_of_mem_lintSource (lintSource_of_within hlint) hf
    | error e => exact ⟨by simp [errorKinds], le_refl _⟩

theorem isProper_fileOutcome (grammar : Grammar) (disk : Disk) (base : FilePath) (config : Config)
    (rules : Option (List String)) (p : FilePath) (limits : Limits) :
    (fileOutcome grammar disk base config rules p limits).IsProper := by
  unfold fileOutcome
  split
  · exact isProper_sourceOutcome _ _ _ _
  · exact ⟨by simp [errorKinds], le_refl _⟩

/-- The result of a run that is known by something is proper. -/
theorem isProper_resultOf (grammar : Grammar) (disk : Disk) {task : Task}
    (hstamp : ∀ stamp, task.stamp = some stamp → stamp.runId ≠ "" ∧ stamp.createdAt ≠ "")
    (files : List FilePath) (settings : Members) (limits : Limits := .unlimited) :
    (resultOf grammar disk task files settings limits).IsProper := by
  have houtcomes : ∀ o ∈ outcomes grammar disk task files limits, o.IsProper := by
    intro o ho
    obtain ⟨p, _, rfl⟩ := List.mem_map.mp ho
    exact isProper_fileOutcome _ _ _ _ _ p limits
  have hmarked : (task.stamp.getD
        ⟨deterministicId disk (baseOf disk task.root) files limits, fixedTime⟩).runId ≠ "" ∧
      (task.stamp.getD
        ⟨deterministicId disk (baseOf disk task.root) files limits, fixedTime⟩).createdAt ≠ "" := by
    cases hstamped : task.stamp with
    | some stamp => exact hstamp stamp hstamped
    | none =>
      refine ⟨fun h => ?_, by simp [fixedTime]⟩
      have hchars := congrArg String.toList h
      simp [deterministicId] at hchars
  refine ⟨hmarked.1, hmarked.2, Int.natCast_nonneg _, ?_, ?_⟩
  · intro f hf
    obtain ⟨o, ho, hf⟩ := List.mem_flatMap.mp hf
    cases o with
    | ok findings => exact houtcomes _ ho f hf
    | error e => cases hf
  · intro e he
    obtain ⟨o, ho, he⟩ := List.mem_filterMap.mp he
    cases o with
    | ok findings => cases he
    | error e' =>
      cases he
      exact houtcomes _ ho

/-- The configuration can be shown as data if its patterns and excluded names are lists. -/
theorem exists_toMembers {config : Config} {included excluded : List String}
    (hincluded : config.included = .texts included) (hexcluded : config.excluded = .texts excluded) :
    ∃ settings, config.toMembers = .ok settings := by
  rw [Config.toMembers, hincluded, hexcluded]
  exact ⟨_, rfl⟩

/-- Writing a result out fails on a path, or on a name in the result. -/
theorem output_or_stray_of_written {disk : Disk} {task : Task} {result : LintResult} {limits : Limits}
    {e : ProjectError} (h : written disk task result limits = .error e) :
    (∃ error, e = .output error) ∨
      ∃ what text, e = .stray what ∧ strayIn limits (namesOf task.root result) text = some what := by
  unfold written at h
  cases hfolder : task.outFolder with
  | none => simp [hfolder] at h
  | some folder =>
    simp only [hfolder, writeResult] at h
    split at h
    · next error _ =>
      cases h
      exact .inl ⟨error, rfl⟩
    · split at h
      · cases h
        exact .inl ⟨_, rfl⟩
      · next hstray =>
        cases h
        exact .inr ⟨_, _, rfl, hstray⟩
      · cases h

theorem exists_output_of_written {disk : Disk} {task : Task} {result : LintResult} {e : ProjectError}
    (h : written disk task result = .error e) : ∃ error, e = .output error := by
  rcases output_or_stray_of_written h with houtput | ⟨_, _, _, hstray⟩
  · exact houtput
  · rw [strayIn_unlimited] at hstray
    cases hstray

theorem written_ne_invalid {disk : Disk} {task : Task} {result : LintResult} {limits : Limits}
    {violation : Schema.Violation} : written disk task result limits ≠ .error (.invalid violation) := by
  intro h
  rcases output_or_stray_of_written h with ⟨_, ⟨⟩⟩ | ⟨_, _, ⟨⟩, _⟩

theorem finished_of_isProper {disk : Disk} {task : Task} {result : LintResult} (h : result.IsProper)
    (limits : Limits := .unlimited) :
    finished disk task result limits = (written disk task result limits).map (result, ·) := by
  rw [finished, (Schema.check_eq_none_iff _ _).mpr h.meetsAll]

/-- Whatever is on the disk, whatever rules are asked for and whatever the limits, a run that finds its
files comes to a result that is as its schema demands, where no finding is off. All it can still fail on
is writing the result out. -/
theorem runTask_valid {grammar : Grammar} {disk : Disk} {task : Task} {limits : Limits}
    {included excluded : List String} (hincluded : task.config.included = .texts included)
    (hexcluded : task.config.excluded = .texts excluded)
    (hstamp : ∀ stamp, task.stamp = some stamp → stamp.runId ≠ "" ∧ stamp.createdAt ≠ "") :
    (∀ violation, (runTask grammar disk task limits).outcome ≠ .error (.invalid violation)) ∧
      ((∃ e, discover disk task.root task.config.included task.config.excluded
            task.config.maxFileBytes = .error e ∧
          (runTask grammar disk task limits).outcome = .error (.discovery e)) ∨
        ∃ files settings result,
          discover disk task.root task.config.included task.config.excluded
            task.config.maxFileBytes = .ok files ∧
          task.config.toMembers = .ok settings ∧
          result = resultOf grammar disk task files settings limits ∧
          Schema.MeetsAll result.toValue Schema.lintResult ∧
          Schema.check Schema.lintResult result.toValue = none ∧
          (∀ f ∈ result.findings, f.severity ≠ .off) ∧
          (runTask grammar disk task limits).outcome =
            (written disk task result limits).map (result, ·)) := by
  rw [outcome_runTask]
  cases discover disk task.root task.config.included task.config.excluded
    task.config.maxFileBytes with
  | error e =>
    refine ⟨?_, .inl ⟨e, rfl, rfl⟩⟩
    rintro _ ⟨⟩
  | ok files =>
    obtain ⟨settings, hsettings⟩ := exists_toMembers hincluded hexcluded
    have hproper := isProper_resultOf grammar disk hstamp files settings limits
    simp only [hsettings, Except.mapError, bind, Except.bind, finished_of_isProper hproper limits]
    refine ⟨fun violation h => ?_, .inr ⟨files, settings, _, rfl, rfl, rfl, hproper.meetsAll,
      (Schema.check_eq_none_iff _ _).mpr hproper.meetsAll,
      fun f hf => (hproper.findings f hf).severity, rfl⟩⟩
    cases hwritten : written disk task (resultOf grammar disk task files settings limits) limits with
    | ok disk' =>
      rw [hwritten] at h
      cases h
    | error e =>
      rw [hwritten] at h
      cases h
      exact written_ne_invalid hwritten

theorem baseOf_eq {disk : Disk} (plain : disk.IsPlain) {root : FilePath} (hroot : root.anchor = .root)
    (hfolder : disk.entryAt root.parts = some .folder) : baseOf disk root = root := by
  obtain ⟨anchor, names⟩ := root
  cases hroot
  have hstat := plain.stat_of_entryAt hfolder
  rw [baseOf, Disk.isFolder, hstat]
  rfl

/-- A folder with a file that has two queries, one with a syntax error and one that is no text. -/
def shop : Disk where
  entries :=
    [(["shop"], .folder), (["shop", "a.test.js"], .file (Text.utf8 Rule.AwaitQuery.looseQuery.text)),
     (["shop", "b.test.js"], .file (Text.utf8 "let (")), (["shop", "c.test.js"], .file [255])]
  current := []

/-- A grammar that finds an error in `let (`, and two queries in any other text. -/
def shopGrammar : Grammar := fun _ text =>
  if text = "let (" then
    .mk ⟨Kind.program, 0, 5, true, true, false, none⟩
      [.mk ⟨Kind.error, 0, 5, true, true, false, none⟩ []]
  else Rule.AwaitQuery.looseQuery.tree

/-- The files of `shop` by their names. -/
def shopTask : Task where
  root := ⟨.root, ["shop"]⟩
  config := { Config.default with included := .texts ["a.test.js", "b.test.js", "c.test.js"] }
  rules := some ["await-async-query"]
  outFolder := none
  stamp := none

theorem isPlain_shop : shop.IsPlain := by
  refine ⟨?_, by decide, ?_, rfl⟩
  · simp [shop]
  · simp [shop, Disk.entryAt, List.lookup_cons]

theorem discover_shop :
    discover shop shopTask.root shopTask.config.included shopTask.config.excluded
      shopTask.config.maxFileBytes =
        .ok [⟨.root, ["shop", "a.test.js"]⟩, ⟨.root, ["shop", "b.test.js"]⟩,
          ⟨.root, ["shop", "c.test.js"]⟩] := by
  have hroot : shop.stat ⟨.root, ["shop"]⟩ = .ok .folder :=
    (isPlain_shop.stat_eq_ok_iff (by decide)).mpr rfl
  have hfound : candidates (globPaths shop ⟨.root, ["shop"]⟩) shop ⟨.root, ["shop"]⟩ alwaysExcluded
      (.int (2000000 : Nat)) [.text "a.test.js", .text "b.test.js", .text "c.test.js"] =
        .ok [⟨.root, ["shop", "a.test.js"]⟩, ⟨.root, ["shop", "b.test.js"]⟩,
          ⟨.root, ["shop", "c.test.js"]⟩] := by
    rw [candidates_name isPlain_shop rfl rfl rfl (by decide) (by decide +kernel) (by decide),
      candidates_name isPlain_shop rfl rfl rfl (by decide) (by decide +kernel) (by decide),
      candidates_name isPlain_shop rfl rfl rfl (by decide) (by decide +kernel) (by decide)]
    rfl
  have hsorted : [(⟨.root, ["shop", "a.test.js"]⟩ : FilePath), ⟨.root, ["shop", "b.test.js"]⟩,
      ⟨.root, ["shop", "c.test.js"]⟩].Pairwise (fun p q => p.le q) := by decide
  have hisFile : shop.isFile ⟨.root, ["shop"]⟩ = false := by rw [Disk.isFile, hroot]
  have hpatterns : patternsOf shopTask.config.included =
      .ok [.text "a.test.js", .text "b.test.js", .text "c.test.js"] := rfl
  have hexcluded : excludedNames shopTask.config.excluded = .ok alwaysExcluded := rfl
  have hlimit : shopTask.config.maxFileBytes = .int (2000000 : Nat) := rfl
  unfold discover discoverBy
  rw [show shopTask.root = ⟨.root, ["shop"]⟩ from rfl, hisFile, hpatterns, hexcluded, hlimit]
  simp only [Bool.false_eq_true, if_false, bind, Except.bind, hfound, pure, Except.pure]
  rw [eraseDups_of_nodup (by decide), List.mergeSort_of_pairwise hsorted]

/-- The source in the first file of `shop`. -/
def shopSource : Source := { Rule.AwaitQuery.looseQuery with path := "a.test.js" }

theorem exists_lintSource_shop :
    ∃ finding, lintSource shopSource shopTask.config shopTask.rules .usual = .ok [finding] := by
  have hid : Rule.ofId? "await-async-query" = some Rule.AwaitQuery.rule := rfl
  obtain ⟨severity, -, hchoose⟩ := @choose_single shopTask.config shopTask.rules _ _ (.inl rfl) hid
    (by decide)
  have hsites : Rule.AwaitQuery.unhandledSites shopSource =
      [⟨shopSource.tree.placeAt 3, shopSource.tree.placeAt 3, shopSource.tree.placeAt 2⟩] := rfl
  have hlint := lintSource_single hchoose (Rule.AwaitQuery.soloWalk_rule shopSource)
  rw [hsites, List.map_singleton, List.map_singleton, arrange_singleton] at hlint
  have hends : ¬ Rule.AwaitQuery.GivesUp .usual shopSource := by
    refine Rule.AwaitQuery.not_givesUp_of_shallow ?_
    rintro _ ⟨⟩
    decide
  obtain ⟨findings, hwithin⟩ := @exists_lintSource_within_eq_ok .usual shopSource shopTask.config
    shopTask.rules (by decide) (fun h => hends h.2) fun _ _ => rfl
  cases hlint.symm.trans (lintSource_of_within hwithin)
  exact ⟨_, hwithin⟩

/-- The first file of `shop` has a finding, the second a syntax error and the third no text. -/
theorem exists_outcomes_shop :
    ∃ finding line fault, outcomes shopGrammar shop shopTask [⟨.root, ["shop", "a.test.js"]⟩,
        ⟨.root, ["shop", "b.test.js"]⟩, ⟨.root, ["shop", "c.test.js"]⟩] .usual =
      [.ok [finding], .error ⟨"b.test.js", parseError, "syntax error", line⟩,
        .error ⟨"c.test.js", readError, fault, 0⟩] := by
  have hbase : baseOf shop shopTask.root = ⟨.root, ["shop"]⟩ := baseOf_eq isPlain_shop rfl rfl
  have hread : ∀ {name content}, shop.entryAt ["shop", name] = some (.file content) →
      shop.read ⟨.root, ["shop", name]⟩ = .ok content := fun h => isPlain_shop.read_of_entryAt h
  have hname : ∀ {name}, name ∈ ["a.test.js", "b.test.js", "c.test.js"] →
      nameIn ⟨.root, ["shop"]⟩ ⟨.root, ["shop", name]⟩ = name := by
    simp only [List.forall_mem_cons, List.not_mem_nil, false_imp_iff, implies_true, and_true]
    exact ⟨rfl, rfl, rfl⟩
  obtain ⟨finding, hlint⟩ := exists_lintSource_shop
  obtain ⟨fault, hfault⟩ : ∃ fault, Text.decode [255] = .error fault := by
    rw [Text.decode, dif_neg (by decide +kernel)]
    exact ⟨_, rfl⟩
  have hfirst : fileOutcome shopGrammar shop ⟨.root, ["shop"]⟩ shopTask.config shopTask.rules
      ⟨.root, ["shop", "a.test.js"]⟩ .usual = .ok [finding] := by
    have hload : loadSource shopGrammar shop ⟨.root, ["shop", "a.test.js"]⟩ "a.test.js" =
        .ok shopSource := by
      rw [loadSource_eq (hread rfl), Text.decode_utf8]
      rfl
    have hclean : shopSource.hasErrors = false := rfl
    rw [fileOutcome, hname (by decide), hload]
    simp only [sourceOutcome, hclean, Bool.false_eq_true, if_false, hlint]
    rfl
  have hsecond : ∃ line, fileOutcome shopGrammar shop ⟨.root, ["shop"]⟩ shopTask.config
      shopTask.rules ⟨.root, ["shop", "b.test.js"]⟩ .usual =
        .error ⟨"b.test.js", parseError, "syntax error", line⟩ := by
    have hload : loadSource shopGrammar shop ⟨.root, ["shop", "b.test.js"]⟩ "b.test.js" =
        .ok ⟨"b.test.js", "let (", .javascript, shopGrammar .javascript "let ("⟩ := by
      rw [loadSource_eq (hread rfl), Text.decode_utf8]
      rfl
    rw [fileOutcome, hname (by decide), hload]
    exact ⟨_, rfl⟩
  have hthird : fileOutcome shopGrammar shop ⟨.root, ["shop"]⟩ shopTask.config shopTask.rules
      ⟨.root, ["shop", "c.test.js"]⟩ .usual = .error ⟨"c.test.js", readError, fault.message, 0⟩ := by
    rw [fileOutcome, hname (by decide), loadSource_eq (hread rfl), hfault]
    rfl
  obtain ⟨line, hsecond⟩ := hsecond
  refine ⟨finding, line, fault.message, ?_⟩
  rw [outcomes, hbase]
  simp only [List.map_cons, List.map_nil, hfirst, hsecond, hthird]

/-- In `shop` one file has a finding, and two are noted as errors. -/
theorem runTask_valid_shop :
    ∃ result, (runTask shopGrammar shop shopTask .usual).outcome = .ok (result, shop) ∧
      Schema.check Schema.lintResult result.toValue = none ∧ result.filesScanned = 3 ∧
      result.findings.length = 1 ∧ result.errors.map (·.kind) = [parseError, readError] := by
  have hincluded : shopTask.config.included = .texts ["a.test.js", "b.test.js", "c.test.js"] := rfl
  have hexcluded : shopTask.config.excluded = .texts [] := rfl
  have hstamp : ∀ stamp, shopTask.stamp = some stamp →
      stamp.runId ≠ "" ∧ stamp.createdAt ≠ "" := by rintro _ ⟨⟩
  obtain ⟨_, ⟨e, herror, _⟩ | ⟨files, settings, result, hfound, _, hresult, _, hcheck, _, hrun⟩⟩ :=
    @runTask_valid shopGrammar shop shopTask .usual _ _ hincluded hexcluded hstamp
  · rw [discover_shop] at herror
    cases herror
  · rw [discover_shop] at hfound
    cases hfound
    obtain ⟨finding, line, fault, houtcomes⟩ := exists_outcomes_shop
    refine ⟨result, hrun, hcheck, ?_, ?_, ?_⟩
    · rw [hresult]
      rfl
    · rw [hresult]
      simp only [resultOf, houtcomes]
      rfl
    · rw [hresult]
      simp only [resultOf, houtcomes]
      rfl

end QueryLint.Project
