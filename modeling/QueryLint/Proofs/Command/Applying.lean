import QueryLint.Proofs.Project.Suggested

/-!
# Applying suggestions from the command line

The files are rewritten one after the other, and a dry run says the same about each. What stands in the way
is a folder in the place of a copy: the copy then goes into the folder, and may replace another file there.
-/
namespace QueryLint.Command

open QueryLint.Code QueryLint.Data QueryLint.Files QueryLint.Finding QueryLint.Lint QueryLint.Project
open QueryLint.Text

/-- What is said about a file that some suggestions were applied to. -/
def countRemark (dryRun : Bool) (count : String × Nat) : Said :=
  .remark (appliedRemark dryRun count.1 ⟨count.2, 0, none, []⟩)

theorem remark_eq_countRemark {a : Applied} (h : a.errors = []) (dryRun : Bool) (path : String) :
    Said.remark (appliedRemark dryRun path a) = countRemark dryRun (path, a.applied) := by
  simp only [countRemark, appliedRemark, h]

variable {grammar : Grammar} {disk : Disk} {base : FilePath}

/-- One after the other, the files that are ready are rewritten. A dry run says the same about each. -/
theorem applyToFiles_eq (plain : disk.IsPlain)
    {groups : List (String × List QueryLint.Finding)} {rs : List Rewrite}
    (hgroups : List.Forall₂ (fun g r => g.1 = nameIn base r.path ∧
      base.join (.ofString g.1) = r.path ∧ Edit.applyAll r.text (firstEdits g.2) = .ok r.outcome ∧
      r.outcome.applied ≠ 0) groups rs)
    (hready : ∀ r ∈ rs, r.IsReady disk) (hpaths : (rs.map fun r => r.path.parts).Nodup)
    (dryRun : Bool) :
    applyToFiles base dryRun groups disk =
      (rs.map fun r => countRemark dryRun (nameIn base r.path, r.outcome.applied),
        if dryRun then disk else rs.foldl Rewrite.perform disk, none) := by
  induction hgroups generalizing disk with
  | nil => cases dryRun <;> rfl
  | @cons g r groups rs hserves _ ih =>
    obtain ⟨hname, hjoin, hedits, happlied⟩ := hserves
    obtain ⟨hr, hrs⟩ := List.forall_mem_cons.mp hready
    obtain ⟨hfirst, hpaths⟩ := List.nodup_cons.mp hpaths
    obtain ⟨a, hcount, herrors, happly⟩ := applySuggestions_eq plain hr happlied hedits dryRun
    rw [applyToFiles, hjoin, happly]
    simp only [List.map_cons, List.foldl_cons, remark_eq_countRemark herrors, hcount, ← hname]
    cases dryRun with
    | true =>
      have hrest := ih plain hrs hpaths
      simp only [if_true] at hrest ⊢
      rw [hrest]
    | false =>
      have hrest := ih (hr.isPlain_perform plain) (fun s hs => hr.stays plain (hrs s hs) fun heq =>
        hfirst (List.mem_map.mpr ⟨s, hs, heq⟩)) hpaths
      simp only [Bool.false_eq_true, if_false] at hrest ⊢
      rw [hrest]

/-- Whatever is on the disk, folders stay folders. -/
theorem entryAt_folder_applyToFiles {names : List String} {dryRun : Bool}
    {groups : List (String × List QueryLint.Finding)} (hfolder : disk.entryAt names = some .folder) :
    (applyToFiles base dryRun groups disk).2.1.entryAt names = some .folder := by
  induction groups generalizing disk with
  | nil => exact hfolder
  | cons g groups ih =>
    rw [applyToFiles]
    split
    · exact hfolder
    · next a disk' happly => exact ih (entryAt_folder_applySuggestions hfolder happly)

/-- A dry run leaves the disk as it is, whatever comes of it. -/
theorem applyToFiles_dryRun (groups : List (String × List QueryLint.Finding)) :
    (applyToFiles base true groups disk).2.1 = disk := by
  induction groups with
  | nil => rfl
  | cons g groups ih =>
    rw [applyToFiles]
    split
    · rfl
    · next a disk' happly =>
      cases applySuggestions_dryRun happly
      exact ih

section Lint

variable {setting : Setting} {path : FilePath} {folder : List String} {settings : LintSettings}

theorem discoverConfig_default {yaml : YamlReader} {env : Environment}
    (hvariable : ∀ value, env.lookup configVariable = some value → value = "")
    (plain : disk.IsPlain) (hfolder : disk.entryAt folder = some .folder)
    (hfiles : ∀ name ∈ configNames, ∀ content, disk.entryAt (folder ++ [name]) ≠ some (.file content)) :
    discoverConfig yaml env disk ⟨.root, folder⟩ = .quiet (.ok .default) := by
  have hnone : (env.lookup configVariable).filter (· ≠ "") = none := by
    cases hvalue : env.lookup configVariable with
    | none => rfl
    | some value => simp [hvariable value hvalue]
  have hno : (configNames.map (FilePath.child ⟨.root, folder⟩)).find? disk.isFile = none := by
    rw [List.find?_eq_none]
    intro p hp
    obtain ⟨name, hname, rfl⟩ := List.mem_map.mp hp
    have hdots : ".." ∉ folder ++ [name] := by
      rw [List.mem_append, not_or]
      refine ⟨plain.notMem_of_entryAt hfolder, ?_⟩
      rintro hmem
      rw [← List.mem_singleton.mp hmem] at hname
      exact absurd hname (by decide)
    rw [Disk.isFile]
    split
    · next content hstat => exact absurd ((plain.stat_eq_ok_iff hdots).mp hstat) (hfiles name hname content)
    · simp
  simp only [discoverConfig, hnone, hno]

/-- A run over a folder without a configuration comes to its end with the findings of its files. -/
theorem run_lint_eq (plain : disk.IsPlain) (hpath : disk.resolve path = .ok ⟨.root, folder⟩)
    (hfolder : disk.entryAt folder = some .folder)
    (hvariable : ∀ value, setting.environment.lookup configVariable = some value → value = "")
    (hconfig : ∀ name ∈ configNames, ∀ content,
      disk.entryAt (folder ++ [name]) ≠ some (.file content))
    (hgiven : settings.config = none)
    (hdeterministic : wantsDeterministic setting.environment → settings.deterministic)
    (hstamp : setting.stamp.runId ≠ "" ∧ setting.stamp.createdAt ≠ "") {files : List FilePath}
    (hfiles : discover disk ⟨.root, folder⟩ Config.default.included Config.default.excluded
      Config.default.maxFileBytes = .ok files) :
    ∃ notes result,
      result.findings = (files.map (fileOutcome setting.grammar disk ⟨.root, folder⟩ .default
        none)).flatMap FileOutcome.findings ∧
      ∀ dryRun, Request.run setting disk (.lint path { settings with dryRun := dryRun }) =
        (conclude disk ⟨.root, folder⟩ { settings with dryRun := dryRun } result).after
          (shownNotes settings.verbose notes) := by
  have hbase : baseOf disk ⟨.root, folder⟩ = ⟨.root, folder⟩ := baseOf_eq plain rfl hfolder
  have hdots := plain.notMem_of_entryAt hfolder
  have hentry : disk.hasEntry ⟨.root, folder⟩ = true := by
    rw [Disk.hasEntry, plain.stat_of_entryAt hfolder]
    rfl
  have hresolve := plain.resolve_root hdots
  have hgate : ¬ (wantsDeterministic setting.environment ∧ !settings.deterministic) := by
    rintro ⟨hwants, hnot⟩
    rw [hdeterministic hwants] at hnot
    cases hnot
  let stamp := if settings.deterministic then none else some setting.stamp
  let task : Task := ⟨⟨.root, folder⟩, .default, none, none, stamp⟩
  have hmarked : ∀ s, task.stamp = some s → s.runId ≠ "" ∧ s.createdAt ≠ "" := by
    intro s hs
    simp only [task, stamp] at hs
    split_ifs at hs
    cases hs
    exact hstamp
  obtain ⟨members, hmembers⟩ := @exists_toMembers .default defaultPatterns [] rfl rfl
  have hrun : (runTask setting.grammar disk task).outcome =
      .ok (resultOf setting.grammar disk task files members, disk) := by
    have hproper := isProper_resultOf setting.grammar disk hmarked files members
    simp only [outcome_runTask, task, hfiles, hmembers, Except.mapError, bind, Except.bind]
    rw [finished_of_isProper hproper]
    rfl
  let run := (configSource setting disk settings).andThen fun source =>
    lintProject setting.grammar setting.yaml setting.environment disk ⟨.root, folder⟩ source none
      none stamp
  have houtcome : run.outcome =
      .ok (resultOf setting.grammar disk task files members, disk) := by
    simp only [run, configSource, hgiven, Logged.outcome_andThen, Logged.quiet, lintProject, hresolve,
      hentry, ConfigSource.config, hbase,
      discoverConfig_default hvariable plain hfolder hconfig, Logged.mapError, Except.mapError, bind,
      Except.bind, if_true]
    exact hrun
  refine ⟨run.notes, resultOf setting.grammar disk task files members, ?_, fun dryRun => ?_⟩
  · simp only [resultOf, outcomes, task, hbase]
  · have hsource : configSource setting disk { settings with dryRun := dryRun } =
        configSource setting disk settings := rfl
    rw [Request.run, lintPath, if_neg hgate, hpath]
    simp only [hentry, if_true, lintRoot, hsource]
    rw [show Logged.andThen (configSource setting disk settings) _ = run from rfl, houtcome]

theorem disk_conclude {root : FilePath} (result : LintResult) (happly : settings.applySuggestions) :
    (conclude disk root settings result).disk =
      (applyToFiles (baseOf disk root) settings.dryRun (suggestionsByFile result.findings) disk).2.1 := by
  simp only [conclude, happly, if_true, Outcome.disk_after]
  generalize applyToFiles (baseOf disk root) settings.dryRun (suggestionsByFile result.findings)
    disk = applied
  obtain ⟨said, changed, fault⟩ := applied
  cases fault with
  | some fault => rfl
  | none =>
    simp only
    split <;> rfl

/-- What is said of a result before anything is applied. -/
def listed (settings : LintSettings) (result : LintResult) : List Said :=
  .remark (listing result) ::
    if settings.json then [Said.answer (Json.canonical (some Json.usualIndent) result.toValue)] else []

/-- What is said of a verdict. -/
def verdictRemark (settings : LintSettings) (result : LintResult) : List Said :=
  ((Result.verdict result settings.maxWarnings).2.map fun remark => Said.remark (remark ++ "\n")).toList

theorem said_conclude {root : FilePath} {result : LintResult} {said : List Said} {changed : Disk}
    (happly : settings.applySuggestions)
    (h : applyToFiles (baseOf disk root) settings.dryRun (suggestionsByFile result.findings) disk =
      (said, changed, none)) :
    (conclude disk root settings result).said =
      listed settings result ++ said ++ verdictRemark settings result := by
  simp only [conclude, happly, if_true, h, verdictRemark, listed]
  cases hverdict : Result.verdict result settings.maxWarnings with
  | mk code remark => cases remark <;> rfl

end Lint

/-- What applying suggestions makes of a disk: each file that suggestions are made for has the text that
comes of them, a copy of what it was is kept, and nothing else is changed. -/
structure IsApplied (grammar : Grammar) (base : FilePath) (files : List FilePath)
    (before after : Disk) : Prop where
  rewritten : ∀ p ∈ files, ∀ text, IsSuggested grammar before base p text →
    ∃ outcome, suggest grammar text (nameIn base p) none = .ok outcome ∧ outcome.text ≠ text ∧
      after.entryAt p.parts = some (.file (utf8 outcome.text)) ∧
      after.entryAt (p.extendName backupSuffix).parts = some (.file (utf8 text))
  unchanged : ∀ names, (∀ p ∈ files, ∀ text, IsSuggested grammar before base p text →
    names ≠ p.parts ∧ names ≠ (p.extendName backupSuffix).parts) →
      after.entryAt names = before.entryAt names

/-- Whether no folder stands where a copy is to be made. -/
def IsUnobstructed (grammar : Grammar) (base : FilePath) (files : List FilePath) (disk : Disk) : Prop :=
  ∀ p ∈ files, ∀ text, IsSuggested grammar disk base p text →
    disk.entryAt (p.extendName backupSuffix).parts ≠ some .folder

section Rewrites

variable {files : List FilePath} {rs : List Rewrite}

theorem isReady_of_isUnobstructed (hlisted : ∀ p ∈ files, IsListed disk p)
    (hclear : IsUnobstructed grammar base files disk)
    (hserves : ∀ r ∈ rs, r.path ∈ files ∧ ∃ g, Rewrite.Serves grammar disk base g r) :
    ∀ r ∈ rs, r.IsReady disk := by
  intro r hr
  obtain ⟨hp, g, hg⟩ := hserves r hr
  exact ⟨(hlisted _ hp).anchor, (hlisted _ hp).supported, hg.suggested.file,
    hclear _ hp _ hg.suggested⟩

/-- Rewriting all files with suggestions is what applying suggestions is to be. -/
theorem isApplied_foldl_perform (plain : disk.IsPlain) (hready : ∀ r ∈ rs, r.IsReady disk)
    (hpaths : (rs.map fun r => r.path.parts).Nodup)
    (hserves : ∀ r ∈ rs, r.path ∈ files ∧ ∃ g, Rewrite.Serves grammar disk base g r)
    (hall : ∀ p ∈ files, ∀ text, IsSuggested grammar disk base p text →
      ∃ r ∈ rs, r.path = p ∧ r.text = text) :
    IsApplied grammar base files disk (rs.foldl Rewrite.perform disk) := by
  obtain ⟨hdone, hframe⟩ := Rewrite.entryAt_foldl_perform plain hready hpaths
  constructor
  · intro p hp text hsuggested
    obtain ⟨r, hr, rfl, rfl⟩ := hall p hp text hsuggested
    obtain ⟨_, g, hg⟩ := hserves r hr
    exact ⟨r.outcome, hg.outcome, hg.differs, hdone r hr⟩
  · intro names hnames
    refine hframe names fun r hr => ?_
    obtain ⟨hp, g, hg⟩ := hserves r hr
    exact hnames _ hp _ hg.suggested

/-- The counts of the files are those of the texts by themselves. -/
theorem mem_counts_iff (hserves : ∀ r ∈ rs, r.path ∈ files ∧ ∃ g, Rewrite.Serves grammar disk base g r)
    (hall : ∀ p ∈ files, ∀ text, IsSuggested grammar disk base p text →
      ∃ r ∈ rs, r.path = p ∧ r.text = text) {name : String} {count : Nat} :
    (name, count) ∈ rs.map (fun r => (nameIn base r.path, r.outcome.applied)) ↔
      ∃ p ∈ files, ∃ text outcome, IsSuggested grammar disk base p text ∧
        suggest grammar text (nameIn base p) none = .ok outcome ∧
        name = nameIn base p ∧ count = outcome.applied := by
  constructor
  · intro h
    obtain ⟨r, hr, heq⟩ := List.mem_map.mp h
    obtain ⟨hp, g, hg⟩ := hserves r hr
    cases heq
    exact ⟨r.path, hp, r.text, r.outcome, hg.suggested, hg.outcome, rfl, rfl⟩
  · rintro ⟨p, hp, text, outcome, hsuggested, hsuggest, rfl, rfl⟩
    obtain ⟨r, hr, rfl, rfl⟩ := hall p hp text hsuggested
    obtain ⟨_, g, hg⟩ := hserves r hr
    rw [hg.outcome] at hsuggest
    cases hsuggest
    exact List.mem_map_of_mem hr

end Rewrites

section Run

variable {setting : Setting} {path : FilePath} {folder : List String} {settings : LintSettings}

/-- In a folder without links and without a configuration, suggestions are applied to exactly the files
they are made for, and copies are kept, unless a folder stands where a copy is to be made. A dry run
changes nothing, and says the same about each file. -/
theorem run_applies_iff (plain : disk.IsPlain) (faithful : setting.grammar.IsFaithful)
    (hpath : disk.resolve path = .ok ⟨.root, folder⟩) (hfolder : disk.entryAt folder = some .folder)
    (hvariable : ∀ value, setting.environment.lookup configVariable = some value → value = "")
    (hconfig : ∀ name ∈ configNames, ∀ content,
      disk.entryAt (folder ++ [name]) ≠ some (.file content))
    (hgiven : settings.config = none) (happly : settings.applySuggestions)
    (hdeterministic : wantsDeterministic setting.environment → settings.deterministic)
    (hstamp : setting.stamp.runId ≠ "" ∧ setting.stamp.createdAt ≠ "") :
    ∃ files, discover disk ⟨.root, folder⟩ Config.default.included Config.default.excluded
        Config.default.maxFileBytes = .ok files ∧
      (Request.run setting disk (.lint path { settings with dryRun := true })).disk = disk ∧
      (IsApplied setting.grammar ⟨.root, folder⟩ files disk
          (Request.run setting disk (.lint path { settings with dryRun := false })).disk ↔
        IsUnobstructed setting.grammar ⟨.root, folder⟩ files disk) ∧
      (IsUnobstructed setting.grammar ⟨.root, folder⟩ files disk →
        ∃ (counts : List (String × Nat)) (front back : List Said),
          (∀ name count, (name, count) ∈ counts ↔ ∃ p ∈ files, ∃ text outcome,
            IsSuggested setting.grammar disk ⟨.root, folder⟩ p text ∧
            suggest setting.grammar text (nameIn ⟨.root, folder⟩ p) none = .ok outcome ∧
            name = nameIn ⟨.root, folder⟩ p ∧ count = outcome.applied) ∧
          (counts.map Prod.fst).Nodup ∧
          ∀ dryRun, (Request.run setting disk (.lint path { settings with dryRun := dryRun })).said =
            front ++ counts.map (countRemark dryRun) ++ back) := by
  obtain ⟨files, hfiles, _⟩ := exists_discover_default plain hfolder
  obtain ⟨notes, result, hfindings, hrun⟩ := run_lint_eq plain hpath hfolder hvariable hconfig hgiven
    hdeterministic hstamp hfiles
  have hbase : baseOf disk ⟨.root, folder⟩ = ⟨.root, folder⟩ := baseOf_eq plain rfl hfolder
  obtain ⟨hnodup, hlisted⟩ := isListed_of_discover plain hfiles
  have hnames : (files.map (nameIn ⟨.root, folder⟩)).Nodup :=
    hnodup.map_on fun p hp q hq => (hlisted p hp).eq_of_nameIn_eq plain (hlisted q hq) hfolder
  have hdisk : ∀ dryRun,
      (Request.run setting disk (.lint path { settings with dryRun := dryRun })).disk =
        (applyToFiles ⟨.root, folder⟩ dryRun (suggestionsByFile result.findings) disk).2.1 := by
    intro dryRun
    have hchanged := @disk_conclude disk { settings with dryRun := dryRun } ⟨.root, folder⟩ result happly
    rw [hrun, Outcome.disk_after, hchanged, hbase]
  obtain ⟨rs, hgroups, hdistinct, hall⟩ := exists_rewrites plain faithful rfl hfolder hlisted hnames
  rw [← hfindings] at hgroups
  have hserves : ∀ r ∈ rs, r.path ∈ files ∧
      ∃ g, Rewrite.Serves setting.grammar disk ⟨.root, folder⟩ g r := by
    intro r hr
    obtain ⟨g, _, hp, hg⟩ := exists_of_forall₂ hgroups hr
    exact ⟨hp, g, hg⟩
  have hpaths : (rs.map fun r => r.path.parts).Nodup := by
    refine List.Nodup.of_map (fun parts => nameIn ⟨.root, folder⟩ ⟨.root, parts⟩) ?_
    rw [List.map_map]
    refine (List.map_congr_left fun r hr => ?_) ▸ hdistinct
    have hanchor := (hlisted _ (hserves r hr).1).anchor
    rw [Function.comp, ← hanchor]
  have happlied : IsUnobstructed setting.grammar ⟨.root, folder⟩ files disk → ∀ dryRun,
      applyToFiles ⟨.root, folder⟩ dryRun (suggestionsByFile result.findings) disk =
        (rs.map fun r => countRemark dryRun (nameIn ⟨.root, folder⟩ r.path, r.outcome.applied),
          if dryRun then disk else rs.foldl Rewrite.perform disk, none) := fun hclear dryRun =>
    applyToFiles_eq plain (hgroups.imp fun g r h => ⟨h.2.name, h.2.path, h.2.edits, h.2.applied⟩)
      (isReady_of_isUnobstructed hlisted hclear hserves) hpaths dryRun
  refine ⟨files, hfiles, ?_, ⟨fun hafter p hp text hsuggested hobstructed => ?_, fun hclear => ?_⟩,
    fun hclear => ?_⟩
  · rw [hdisk, applyToFiles_dryRun]
  · -- a folder in the place of a copy is still there in the end
    obtain ⟨outcome, _, _, _, hcopy⟩ := hafter.rewritten p hp text hsuggested
    rw [hdisk, entryAt_folder_applyToFiles hobstructed] at hcopy
    cases hcopy
  · rw [hdisk, happlied hclear]
    exact isApplied_foldl_perform plain (isReady_of_isUnobstructed hlisted hclear hserves) hpaths
      hserves hall
  · refine ⟨rs.map fun r => (nameIn ⟨.root, folder⟩ r.path, r.outcome.applied),
      shownNotes settings.verbose notes ++ listed settings result, verdictRemark settings result,
      fun name count => mem_counts_iff hserves hall, ?_, fun dryRun => ?_⟩
    · rw [List.map_map]
      exact hdistinct
    · have hsaid := @said_conclude disk { settings with dryRun := dryRun } ⟨.root, folder⟩ result _ _ happly
        (by rw [hbase]; exact happlied hclear dryRun)
      rw [hrun, Outcome.after, hsaid, List.map_map, List.append_assoc, List.append_assoc,
        List.append_assoc]
      rfl

/-- A text that waits are reported for has suggestions. -/
theorem isSuggested_of_waits {p : FilePath} {source : Source} {text : String}
    (hfile : disk.entryAt p.parts = some (.file (utf8 text)))
    (hparse : parseClean grammar text (nameIn base p) = .ok source)
    (hwaits : Rule.PreferFind.waits source ≠ []) : IsSuggested grammar disk base p text := by
  refine ⟨hfile, _, lintText_default hparse, ?_⟩
  have hperm := suggestedEdits_arrange_default source
  have hedits : suggestedEdits (arrange (defaultFindings source)) ≠ [] := by
    intro hnil
    rw [hnil] at hperm
    exact hwaits (List.map_eq_nil_iff.mp hperm.symm.eq_nil)
  obtain ⟨e, he⟩ := List.exists_mem_of_ne_nil _ hedits
  obtain ⟨s, hs, _⟩ := List.mem_map.mp he
  obtain ⟨f, hf, hs⟩ := List.mem_flatMap.mp hs
  exact ⟨f, hf, List.ne_nil_of_mem hs⟩

end Run

/-- `async () => { await wait(() => getByText('a')) }` -/
def lateQuery : Source where
  path := "t.test.js"
  text := "async () => \x7b await wait(() => getByText('a')) \x7d\n"
  language := .javascript
  tree :=
    .named "program" 0 49 none [
      .named "expression_statement" 0 48 none [
        .named "arrow_function" 0 48 none [
          .token "async" 0 5,
          .named "formal_parameters" 6 8 (some .parameters) [.token "(" 6 7, .token ")" 7 8],
          .token "=>" 9 11,
          .named "statement_block" 12 48 (some .body) [
            .token "\x7b" 12 13,
            .named "expression_statement" 14 46 none [
              .named "await_expression" 14 46 none [
                .token "await" 14 19,
                .named "call_expression" 20 46 none [
                  .named "identifier" 20 24 (some .function) [],
                  .named "arguments" 24 46 (some .arguments) [
                    .token "(" 24 25,
                    .named "arrow_function" 25 45 none [
                      .named "formal_parameters" 25 27 (some .parameters) [
                        .token "(" 25 26, .token ")" 26 27],
                      .token "=>" 28 30,
                      .named "call_expression" 31 45 (some .body) [
                        .named "identifier" 31 40 (some .function) [],
                        .named "arguments" 40 45 (some .arguments) [
                          .token "(" 40 41,
                          .named "string" 41 44 none [
                            .token "'" 41 42, .named "string_fragment" 42 43 none [],
                            .token "'" 43 44],
                          .token ")" 44 45]]],
                    .token ")" 45 46]]]],
            .token "\x7d" 47 48]]]]

/-- Reads the text of `lateQuery`, and takes any other to be empty. -/
def lateGrammar : Grammar := fun _ text => if text = lateQuery.text then lateQuery.tree else emptyTree

theorem isFaithful_lateGrammar : lateGrammar.IsFaithful := by
  have hempty : ∀ text, emptyTree.Laid text := by
    intro text
    refine ⟨by decide, fun p hp => ?_⟩
    cases List.mem_singleton.mp hp
    exact ⟨isBoundary_zero text, isBoundary_zero text⟩
  constructor
  · intro language text _
    unfold lateGrammar
    split_ifs with htext
    · rw [htext]
      exact Node.laid_of_ascii (by decide) (by decide) (by decide)
    · exact hempty text
  · intro path language text _
    unfold lateGrammar
    split_ifs with htext
    · rw [htext]
      have harrows : lateQuery.SpellsArrows := by decide
      exact harrows
    · intro p hp body hbody
      cases List.mem_singleton.mp hp
      cases hbody

/-- Where nothing is set, and runs are known by a name of their own. -/
def plainSetting : Setting := ⟨lateGrammar, fun _ => .error "YAMLError", [], ⟨"run", "now"⟩⟩

/-- Applies suggestions in a deterministic run. -/
def applySettings : LintSettings := ⟨false, true, none, none, true, false, false⟩

/-- A folder with the text of `lateQuery` in a file. -/
def shopFront : Disk := ⟨[(["t.test.js"], .file (utf8 lateQuery.text))], []⟩

theorem parseClean_lateQuery : parseClean lateGrammar lateQuery.text "t.test.js" = .ok lateQuery := by
  have hdetect : Language.detect (.ofString "t.test.js") = .ok .javascript := by rfl
  have htree : lateGrammar .javascript lateQuery.text = lateQuery.tree := if_pos rfl
  rw [parseClean_of_detect lateGrammar lateQuery.text hdetect, htree]
  rfl

theorem isSuggested_lateQuery (hfile : disk.entryAt ["t.test.js"] = some (.file (utf8 lateQuery.text))) :
    IsSuggested lateGrammar disk ⟨.root, []⟩ ⟨.root, ["t.test.js"]⟩ lateQuery.text := by
  have hname : nameIn ⟨.root, []⟩ ⟨.root, ["t.test.js"]⟩ = "t.test.js" := by decide
  have hwaits : Rule.PreferFind.waits lateQuery ≠ [] := by decide
  refine isSuggested_of_waits hfile ?_ hwaits
  rw [hname]
  exact parseClean_lateQuery

theorem mem_files_lateQuery (plain : disk.IsPlain)
    (hfile : disk.entryAt ["t.test.js"] = some (.file (utf8 lateQuery.text))) {files : List FilePath}
    (hfiles : discover disk ⟨.root, []⟩ Config.default.included Config.default.excluded
      Config.default.maxFileBytes = .ok files) : ⟨.root, ["t.test.js"]⟩ ∈ files := by
  obtain ⟨files', hfiles', hmem⟩ := exists_discover_default plain Disk.entryAt_nil
  rw [hfiles] at hfiles'
  cases hfiles'
  exact hmem "t.test.js" _ hfile (by decide) (by decide) (by decide) (by decide)

theorem laid_lateQuery : lateQuery.tree.Laid lateQuery.text :=
  Node.laid_of_ascii (by decide) (by decide) (by decide)

theorem suggest_lateQuery :
    ∃ outcome, suggest lateGrammar lateQuery.text "t.test.js" none = .ok outcome ∧
      outcome.text = "async () => \x7b await findByText('a') \x7d\n" := by
  obtain ⟨outcome, hok, hwoven, _⟩ := applyAll_default laid_lateQuery
  have htext : Edit.weave (utf8 lateQuery.text) 0 ((innermostWaits lateQuery).map (waitEdit lateQuery)) =
      utf8 "async () => \x7b await findByText('a') \x7d\n" := by
    decide
  exact ⟨outcome, suggest_of_applyAll parseClean_lateQuery hok, eq_of_utf8_eq (hwoven.trans htext)⟩

/-- The suggestion in `shopFront` is applied, and a copy is kept. -/
theorem run_applies_shopFront :
    (Request.run plainSetting shopFront (.lint (.ofString ".") applySettings)).disk.entryAt
        ["t.test.js"] = some (.file (utf8 "async () => \x7b await findByText('a') \x7d\n")) ∧
      (Request.run plainSetting shopFront (.lint (.ofString ".") applySettings)).disk.entryAt
        ["t.test.js.bak"] = some (.file (utf8 lateQuery.text)) := by
  have plain : shopFront.IsPlain := by
    refine ⟨?_, by decide, ?_, rfl⟩
    · simp [shopFront]
    · simp [shopFront, Disk.entryAt]
  have hpath : shopFront.resolve (.ofString ".") = .ok ⟨.root, []⟩ := by
    rw [plain.resolve_eq]
    rfl
  have hfile : shopFront.entryAt ["t.test.js"] = some (.file (utf8 lateQuery.text)) := rfl
  have hconfig : ∀ name ∈ configNames, ∀ content,
      shopFront.entryAt ([] ++ [name]) ≠ some (.file content) := by
    simp [shopFront, configNames, Disk.entryAt, List.lookup_cons]
  have hnoFolder : ∀ names, names ≠ [] → shopFront.entryAt names ≠ some .folder := by
    intro names hne
    rw [Disk.entryAt, if_neg (by simpa using hne), shopFront, List.lookup_cons]
    split <;> simp
  obtain ⟨files, hfiles, _, hiff, _⟩ := @run_applies_iff _ plainSetting _ [] applySettings plain
    isFaithful_lateGrammar hpath rfl (by rintro _ ⟨⟩) hconfig rfl rfl (by decide +kernel)
    ⟨by decide, by decide⟩
  have hclear : IsUnobstructed lateGrammar ⟨.root, []⟩ files shopFront := fun p _ _ _ =>
    hnoFolder _ (by simp [FilePath.extendName])
  obtain ⟨outcome, hsuggest, _, hnew, hcopy⟩ := (hiff.mpr hclear).rewritten _
    (mem_files_lateQuery plain hfile hfiles) _ (isSuggested_lateQuery hfile)
  obtain ⟨outcome', hsuggest', htext⟩ := suggest_lateQuery
  have hname : nameIn ⟨.root, []⟩ ⟨.root, ["t.test.js"]⟩ = "t.test.js" := by decide +kernel
  rw [hname] at hsuggest
  have hsame : outcome = outcome' := Except.ok.inj (hsuggest.symm.trans hsuggest')
  rw [hsame, htext] at hnew
  exact ⟨hnew, hcopy⟩

/-- A folder with the text of `lateQuery` in a file, and a folder in the place of its copy. -/
def obstructed : Disk where
  entries :=
    [(["t.test.js"], .file (utf8 lateQuery.text)), (["t.test.js.bak"], .folder),
     (["t.test.js.bak", "t.test.js"], .file (utf8 "findByText('x');\n"))]
  current := []

/-- In `obstructed` no copy is kept in its place, since there is still the folder. -/
theorem not_isApplied_obstructed :
    ∃ files, discover obstructed ⟨.root, []⟩ Config.default.included Config.default.excluded
        Config.default.maxFileBytes = .ok files ∧
      ¬ IsApplied lateGrammar ⟨.root, []⟩ files obstructed
        (Request.run plainSetting obstructed (.lint (.ofString ".") applySettings)).disk := by
  have plain : obstructed.IsPlain := by
    refine ⟨?_, by decide, ?_, rfl⟩
    · simp [obstructed]
    · simp [obstructed, Disk.entryAt, List.lookup_cons]
  have hpath : obstructed.resolve (.ofString ".") = .ok ⟨.root, []⟩ := by
    rw [plain.resolve_eq]
    rfl
  have hconfig : ∀ name ∈ configNames, ∀ content,
      obstructed.entryAt ([] ++ [name]) ≠ some (.file content) := by
    simp [obstructed, configNames, Disk.entryAt, List.lookup_cons]
  have hfile : obstructed.entryAt ["t.test.js"] = some (.file (utf8 lateQuery.text)) := rfl
  obtain ⟨files, hfiles, _⟩ := exists_discover_default plain Disk.entryAt_nil
  obtain ⟨notes, result, _, hrun⟩ := @run_lint_eq _ plainSetting _ [] applySettings plain hpath rfl
    (by rintro _ ⟨⟩) hconfig rfl (by decide +kernel) ⟨by decide, by decide⟩ _ hfiles
  have hrun : Request.run plainSetting obstructed (.lint (.ofString ".") applySettings) =
      (conclude obstructed ⟨.root, []⟩ applySettings result).after (shownNotes false notes) :=
    hrun false
  refine ⟨files, hfiles, fun happlied => ?_⟩
  obtain ⟨outcome, _, _, _, hcopy⟩ := happlied.rewritten _
    (mem_files_lateQuery plain hfile hfiles) _ (isSuggested_lateQuery hfile)
  have hfolder : obstructed.entryAt
      (FilePath.extendName ⟨.root, ["t.test.js"]⟩ backupSuffix).parts = some .folder := rfl
  rw [hrun, Outcome.disk_after, disk_conclude result rfl, entryAt_folder_applyToFiles hfolder] at hcopy
  cases hcopy

end QueryLint.Command
