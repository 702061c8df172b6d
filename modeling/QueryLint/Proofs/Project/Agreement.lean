import Mathlib.Data.List.Forall2
import QueryLint.Lint.Text
import QueryLint.Proofs.Code.Errors
import QueryLint.Proofs.Project.Names
import QueryLint.Proofs.Project.Validity

/-!
# Runs over projects and texts by themselves

A run over a project does with each of its files what linting the file's text by itself does: it has the
same findings, or it notes the line that linting the text complains of, or that a rule gave up on the text
or that the file's name is no text. No file is left out, and none both has findings and is noted as an
error.
-/
namespace QueryLint.Project

open QueryLint.Code QueryLint.Data QueryLint.Files QueryLint.Lint QueryLint.Result QueryLint.Text

/-- How a file fares in a run: it has the findings that its text has by itself, or linting its text fails
within the limits, or its text has a syntax error at some line, or it has no text. -/
inductive Fares (grammar : Grammar) (disk : Disk) (task : Task) (limits : Limits) (p : FilePath) :
    FileOutcome → Prop where
  | linted {content : Bytes} {text : String} {source : Source} {findings : List Finding}
      (hread : disk.read p = .ok content) (hdecode : decode content = .ok text)
      (hparse : parseClean grammar text (nameIn (baseOf disk task.root) p) = .ok source)
      (hlint : lintText grammar text (nameIn (baseOf disk task.root) p) task.config task.rules limits =
        .ok findings) :
      Fares grammar disk task limits p (.ok findings)
  | failed {content : Bytes} {text : String} {source : Source} {what : LintError}
      (hread : disk.read p = .ok content) (hdecode : decode content = .ok text)
      (hparse : parseClean grammar text (nameIn (baseOf disk task.root) p) = .ok source)
      (hlint : lintText grammar text (nameIn (baseOf disk task.root) p) task.config task.rules limits =
        .error (.lint what))
      (hfails : Fails limits source task.config task.rules what) :
      Fares grammar disk task limits p
        (.error ⟨nameIn (baseOf disk task.root) p, ruleError, what.noted, 0⟩)
  | broken {content : Bytes} {text : String} {line : Nat}
      (hread : disk.read p = .ok content) (hdecode : decode content = .ok text)
      (hlint : lintText grammar text (nameIn (baseOf disk task.root) p) task.config task.rules limits =
        .error (.syntaxError (nameIn (baseOf disk task.root) p) line))
      (hline : 1 ≤ line) :
      Fares grammar disk task limits p
        (.error ⟨nameIn (baseOf disk task.root) p, parseError, "syntax error", line⟩)
  | unreadable {content : Bytes} {fault : Utf8.Fault}
      (hread : disk.read p = .ok content) (hdecode : decode content = .error fault) :
      Fares grammar disk task limits p
        (.error ⟨nameIn (baseOf disk task.root) p, readError, fault.message, 0⟩)

/-- An outcome that tells of the file of a name. -/
def Tells (name : String) : FileOutcome → Prop
  | .ok findings => ∀ f ∈ findings, f.location.path = name
  | .error e => e.path = name

variable {grammar : Grammar} {disk : Disk} {task : Task} {p : FilePath}

theorem path_of_loadSource {name : String} {source : Source}
    (h : loadSource grammar disk p name = .ok source) : source.path = name := by
  cases hread : disk.read p with
  | error e =>
    rw [loadSource, hread] at h
    cases h
  | ok content =>
    rw [loadSource_eq hread] at h
    split at h
    · cases h
    · split at h
      · cases h
      · cases h
        rfl

theorem tells_sourceOutcome (source : Source) (config : Config) (rules : Option (List String))
    (limits : Limits) : Tells source.path (sourceOutcome source config rules limits) := by
  unfold sourceOutcome
  split
  · rfl
  · cases hlint : lintSource source config rules limits with
    | ok findings => exact fun f hf => path_of_mem_lintSource (lintSource_of_within hlint) hf
    | error e => rfl

theorem tells_fileOutcome (base : FilePath) (config : Config) (rules : Option (List String))
    (limits : Limits := .unlimited) :
    Tells (nameIn base p) (fileOutcome grammar disk base config rules p limits) := by
  unfold fileOutcome
  split
  · next source hload =>
    exact path_of_loadSource hload ▸ tells_sourceOutcome source config rules limits
  · rfl

theorem choose_none (p : FilePath) : Language.choose none p = Language.detect p := by
  rw [Language.choose]

theorem parseClean_of_detect (grammar : Grammar) (text : String) {name : String}
    {language : Language} (h : Language.detect (.ofString name) = .ok language) :
    parseClean grammar text name =
      let source : Source := ⟨name, text, language, grammar language text⟩
      if source.hasErrors then .error (.syntaxError name source.firstErrorLine) else .ok source :=
  parseClean_of_choose grammar text ((choose_none _).trans h)

/-- A file that is listed fares as it does by itself. -/
theorem fares_fileOutcome (plain : disk.IsPlain)
    (marks : ∀ language text, (grammar language text).MarksErrors) (limits : Limits)
    (hbase : disk.entryAt (baseOf disk task.root).parts = some .folder) (hp : IsListed disk p) :
    Fares grammar disk task limits p
      (fileOutcome grammar disk (baseOf disk task.root) task.config task.rules p limits) := by
  obtain ⟨content, hentry⟩ := hp.file
  obtain ⟨language, hlanguage⟩ := exists_detect_eq_ok hp.supported
  have hread : disk.read p = .ok content := by
    obtain ⟨anchor, parts⟩ := p
    cases hp.anchor
    exact plain.read_of_entryAt hentry
  have hnamed := hp.detect_nameIn plain hbase
  rw [hlanguage] at hnamed
  cases hdecode : decode content with
  | error fault =>
    have hload : loadSource grammar disk p (nameIn (baseOf disk task.root) p) =
        .error (.undecodable fault) := by
      rw [loadSource_eq hread, hdecode]
    rw [fileOutcome, hload]
    exact .unreadable hread hdecode
  | ok text =>
    have hload : loadSource grammar disk p (nameIn (baseOf disk task.root) p) =
        .ok ⟨nameIn (baseOf disk task.root) p, text, language, grammar language text⟩ := by
      rw [loadSource_eq hread, hdecode, hlanguage]
    have hparse := parseClean_of_detect grammar text hnamed
    simp only [fileOutcome, hload]
    unfold sourceOutcome
    split
    · next herrors =>
      simp only [herrors, if_true] at hparse
      exact .broken hread hdecode (lintText_of_unclean hparse _ _ _)
        (Source.one_le_firstErrorLine (marks _ _) herrors)
    · next hclean =>
      simp only [hclean, Bool.false_eq_true, if_false] at hparse
      have htext := lintText_of_parseClean hparse task.config task.rules limits
      cases hlint : lintSource ⟨nameIn (baseOf disk task.root) p, text, language,
          grammar language text⟩ task.config task.rules limits with
      | ok findings =>
        rw [hlint] at htext
        exact .linted hread hdecode hparse htext
      | error what =>
        rw [hlint] at htext
        exact .failed hread hdecode hparse htext (lintSource_eq_error_iff.mp hlint)

/-- Outcomes that tell of different files share no file between findings and errors, and note no file
twice. -/
theorem apart_of_tells {names : List String} {outcomes : List FileOutcome}
    (htells : List.Forall₂ Tells names outcomes) (hnames : names.Nodup) :
    ((outcomes.filterMap FileOutcome.error?).map (·.path)).Sublist names ∧
      ∀ f ∈ outcomes.flatMap FileOutcome.findings, f.location.path ∈ names ∧
        ∀ e ∈ outcomes.filterMap FileOutcome.error?, f.location.path ≠ e.path := by
  induction htells with
  | nil => exact ⟨.slnil, by simp⟩
  | @cons name outcome names outcomes htell _ ih =>
    obtain ⟨hname, hnames⟩ := List.nodup_cons.mp hnames
    obtain ⟨hsub, hapart⟩ := ih hnames
    cases outcome with
    | ok own =>
      refine ⟨hsub.cons _, fun f hf => ?_⟩
      rcases List.mem_append.mp hf with hf | hf
      · have hpath : f.location.path = name := htell f hf
        refine ⟨hpath ▸ List.mem_cons_self, fun e he heq => hname ?_⟩
        rw [← hpath, heq]
        exact hsub.subset (List.mem_map_of_mem he)
      · obtain ⟨hmem, hne⟩ := hapart f hf
        exact ⟨List.mem_cons_of_mem _ hmem, hne⟩
    | error e =>
      cases (htell : e.path = name)
      refine ⟨hsub.cons_cons _, fun f hf => ?_⟩
      obtain ⟨hmem, hne⟩ := hapart f hf
      refine ⟨List.mem_cons_of_mem _ hmem, fun e' he' => ?_⟩
      rcases List.mem_cons.mp he' with rfl | he'
      · rintro heq
        exact hname (heq ▸ hmem)
      · exact hne e' he'

/-- A run over a folder without links has a result, which accounts for each file that is found. A file
with a text free of syntax errors has the findings that its text has by itself, unless linting the text
fails as well. Any other is noted as one error, with the line that linting its text complains of, if it has
a text. Rules that exist do not fail on a source with less levels than calls can stand inside each other and
with a name that is a text. -/
theorem runTask_agrees (plain : disk.IsPlain)
    (marks : ∀ language text, (grammar language text).MarksErrors) (limits : Limits)
    (hroot : task.root.anchor = .root) (hfolder : disk.entryAt task.root.parts = some .folder)
    (hrules : ∀ ids, task.rules = some ids → ∀ id ∈ ids, id ∈ Rule.registered.map (·.info.id))
    (hstamp : ∀ stamp, task.stamp = some stamp → stamp.runId ≠ "" ∧ stamp.createdAt ≠ "")
    {files : List FilePath} (hfiles : discover disk task.root task.config.included
      task.config.excluded task.config.maxFileBytes = .ok files)
    {settings : Members} (hsettings : task.config.toMembers = .ok settings) :
    ∃ (result : LintResult) (fates : List FileOutcome),
      (runTask grammar disk task limits).outcome = (written disk task result limits).map (result, ·) ∧
      List.Forall₂ (Fares grammar disk task limits) files fates ∧
      result.findings = fates.flatMap FileOutcome.findings ∧
      result.errors = fates.filterMap FileOutcome.error? ∧
      (∀ f ∈ result.findings, ∀ e ∈ result.errors, f.location.path ≠ e.path) ∧
      result.filesScanned = files.length ∧ result.filesWithErrors = result.errors.length ∧
      ∀ source : Source,
        (∀ n, limits.depth = some n → ∀ p ∈ source.tree.places, p.depth + 1 < n) →
        (∀ c ∈ source.path.toList, limits.strayByte? c = none) →
        ∀ what, ¬ Fails limits source task.config task.rules what := by
  obtain ⟨hnodup, hlisted⟩ := isListed_of_discover plain hfiles
  have hbase : disk.entryAt (baseOf disk task.root).parts = some .folder := by
    rwa [baseOf_eq plain hroot hfolder]
  have hnames : (files.map (nameIn (baseOf disk task.root))).Nodup :=
    hnodup.map_on fun p hp q hq => (hlisted p hp).eq_of_nameIn_eq plain (hlisted q hq) hbase
  have htells : List.Forall₂ Tells (files.map (nameIn (baseOf disk task.root)))
      (outcomes grammar disk task files limits) := by
    rw [outcomes, List.forall₂_map_left_iff, List.forall₂_map_right_iff, List.forall₂_same]
    exact fun p _ => tells_fileOutcome _ _ _ limits
  obtain ⟨hsub, hapart⟩ := apart_of_tells htells hnames
  refine ⟨resultOf grammar disk task files settings limits, outcomes grammar disk task files limits, ?_,
    ?_, rfl, rfl, fun f hf => (hapart f hf).2, rfl, ?_, fun source hshallow hname what hfails => ?_⟩
  · simp only [outcome_runTask, hfiles, hsettings, Except.mapError, bind, Except.bind]
    exact finished_of_isProper (isProper_resultOf grammar disk hstamp files settings limits) limits
  · rw [outcomes, List.forall₂_map_right_iff, List.forall₂_same]
    exact fun p hp => fares_fileOutcome plain marks limits hbase (hlisted p hp)
  · have herrors : (resultOf grammar disk task files settings limits).errors =
        (outcomes grammar disk task files limits).filterMap FileOutcome.error? := rfl
    rw [LintResult.filesWithErrors, herrors, eraseDups_of_nodup (hsub.nodup hnames),
      List.length_map]
  · obtain ⟨findings, hlint⟩ := exists_lintSource_within_eq_ok (firstUnknown?_eq_none hrules)
      (fun h => Rule.AwaitQuery.not_givesUp_of_shallow hshallow h.2) hname
    cases hlint.symm.trans (lintSource_eq_error_iff.mpr hfails)

/-- All three files of `shop` are accounted for. -/
theorem runTask_shop :
    ∃ result fates, (runTask shopGrammar shop shopTask .usual).outcome = .ok (result, shop) ∧
      List.Forall₂ (Fares shopGrammar shop shopTask .usual)
        [⟨.root, ["shop", "a.test.js"]⟩, ⟨.root, ["shop", "b.test.js"]⟩,
          ⟨.root, ["shop", "c.test.js"]⟩] fates ∧
      result.findings = fates.flatMap FileOutcome.findings ∧
      result.errors = fates.filterMap FileOutcome.error? ∧ result.filesScanned = 3 := by
  have hmarks : ∀ language text, (shopGrammar language text).MarksErrors := by
    intro language text
    unfold shopGrammar
    split <;> decide
  have hrules : ∀ ids, shopTask.rules = some ids → ∀ id ∈ ids,
      id ∈ Rule.registered.map (·.info.id) := by
    rintro _ ⟨⟩
    decide
  have hstamp : ∀ stamp, shopTask.stamp = some stamp →
      stamp.runId ≠ "" ∧ stamp.createdAt ≠ "" := by rintro _ ⟨⟩
  obtain ⟨result, fates, hrun, hfares, hfindings, herrors, _, hscanned, _⟩ :=
    runTask_agrees isPlain_shop hmarks .usual rfl rfl hrules hstamp discover_shop rfl
  exact ⟨result, fates, hrun, hfares, hfindings, herrors, hscanned⟩

section Crate

open QueryLint.Rule.AwaitQuery (bracketText bracketTree bracketSource givesUp_bracketSource)

variable (n : Nat)

/-- A folder with a file that has `n` brackets. -/
def crate : Disk where
  entries := [(["crate"], .folder), (["crate", "a.test.js"], .file (utf8 (bracketText n)))]
  current := []

def crateTask : Task where
  root := ⟨.root, ["crate"]⟩
  config := { Config.default with included := .texts ["a.test.js"] }
  rules := some ["await-async-query"]
  outFolder := none
  stamp := none

theorem isPlain_crate : (crate n).IsPlain := by
  have hnames : IsProperName "crate" ∧ IsProperName "a.test.js" := by decide
  refine ⟨?_, by simpa [crate] using hnames, ?_, rfl⟩
  · simp [crate]
  · simp [crate, Disk.entryAt, List.lookup_cons]

theorem discover_crate (hsize : (utf8 (bracketText n)).length ≤ 2000000) :
    discover (crate n) crateTask.root crateTask.config.included crateTask.config.excluded
      crateTask.config.maxFileBytes = .ok [⟨.root, ["crate", "a.test.js"]⟩] := by
  have hroot : (crate n).stat ⟨.root, ["crate"]⟩ = .ok .folder :=
    ((isPlain_crate n).stat_eq_ok_iff (by decide)).mpr rfl
  have hfound : candidates (globPaths (crate n) ⟨.root, ["crate"]⟩) (crate n) ⟨.root, ["crate"]⟩
      alwaysExcluded (.int (2000000 : Nat)) [.text "a.test.js"] =
        .ok [⟨.root, ["crate", "a.test.js"]⟩] := by
    rw [candidates_name (isPlain_crate n) rfl rfl rfl (by decide) (by decide +kernel) hsize]
    rfl
  have hisFile : (crate n).isFile ⟨.root, ["crate"]⟩ = false := by rw [Disk.isFile, hroot]
  have hpatterns : patternsOf crateTask.config.included = .ok [.text "a.test.js"] := rfl
  have hexcluded : excludedNames crateTask.config.excluded = .ok alwaysExcluded := rfl
  have hlimit : crateTask.config.maxFileBytes = .int (2000000 : Nat) := rfl
  unfold discover discoverBy
  rw [show crateTask.root = ⟨.root, ["crate"]⟩ from rfl, hisFile, hpatterns, hexcluded, hlimit]
  simp only [Bool.false_eq_true, if_false, bind, Except.bind, hfound, pure, Except.pure]
  rw [eraseDups_of_nodup (by decide), List.mergeSort_singleton]

/-- The file is noted as an error if there are more brackets than there is room. -/
theorem outcomes_crate {limits : Limits} {d : Nat} (hdepth : limits.depth = some d) (hd : d ≤ n) :
    outcomes (fun _ _ => bracketTree n) (crate n) crateTask [⟨.root, ["crate", "a.test.js"]⟩] limits =
      [.error ⟨"a.test.js", ruleError, "maximum recursion depth exceeded", 0⟩] := by
  have hbase : baseOf (crate n) crateTask.root = ⟨.root, ["crate"]⟩ :=
    baseOf_eq (isPlain_crate n) rfl rfl
  have hname : nameIn ⟨.root, ["crate"]⟩ ⟨.root, ["crate", "a.test.js"]⟩ = "a.test.js" := by rfl
  have hload : loadSource (fun _ _ => bracketTree n) (crate n) ⟨.root, ["crate", "a.test.js"]⟩
      "a.test.js" = .ok (bracketSource "a.test.js" n) := by
    rw [loadSource_eq ((isPlain_crate n).read_of_entryAt rfl), decode_utf8]
    rfl
  have hclean : (bracketSource "a.test.js" n).hasErrors = false := rfl
  have hlint : lintSource (bracketSource "a.test.js" n) crateTask.config crateTask.rules limits =
      .error (.failure (.tooDeep ⟨⟩)) :=
    lintSource_eq_error_iff.mpr
      (.tooDeep (by decide) (by decide) (givesUp_bracketSource _ _ hdepth hd))
  rw [outcomes, hbase, List.map_singleton, fileOutcome, hname, hload]
  simp only [sourceOutcome, hclean, Bool.false_eq_true, if_false, hlint]
  rfl

theorem exists_lintText_crate :
    ∃ findings, lintText (fun _ _ => bracketTree n) (bracketText n) "a.test.js" crateTask.config
      crateTask.rules = .ok findings := by
  obtain ⟨findings, hfindings⟩ := @exists_lintSource_eq_ok (bracketSource "a.test.js" n)
    crateTask.config crateTask.rules (by decide)
  have hparse : parseClean (fun _ _ => bracketTree n) (bracketText n) "a.test.js" =
      .ok (bracketSource "a.test.js" n) := by rfl
  refine ⟨findings, ?_⟩
  rw [lintText_of_parseClean hparse, hfindings]
  rfl

/-- A file with a thousand brackets is noted as an error, though its text has no syntax error and linting
it by itself gives findings if there is room for the brackets. -/
theorem runTask_crate :
    ∃ result findings,
      (runTask (fun _ _ => bracketTree 1000) (crate 1000) crateTask .usual).outcome =
        .ok (result, crate 1000) ∧
      result.findings = [] ∧
      result.errors = [⟨"a.test.js", ruleError, "maximum recursion depth exceeded", 0⟩] ∧
      lintText (fun _ _ => bracketTree 1000) (bracketText 1000) "a.test.js" crateTask.config
        crateTask.rules = .ok findings := by
  have hsize : (utf8 (bracketText 1000)).length ≤ 2000000 := by decide +kernel
  generalize hn : 1000 = n at hsize ⊢
  have houtcomes := @outcomes_crate n .usual _ rfl (hn ▸ by decide)
  have hstamp : ∀ stamp, crateTask.stamp = some stamp →
      stamp.runId ≠ "" ∧ stamp.createdAt ≠ "" := by rintro _ ⟨⟩
  obtain ⟨settings, hsettings⟩ := @exists_toMembers crateTask.config ["a.test.js"] [] rfl rfl
  obtain ⟨findings, hlint⟩ := exists_lintText_crate n
  refine ⟨resultOf (fun _ _ => bracketTree n) (crate n) crateTask [⟨.root, ["crate", "a.test.js"]⟩]
    settings .usual, findings, ?_, ?_, ?_, hlint⟩
  · simp only [outcome_runTask, discover_crate n hsize, hsettings, Except.mapError, bind, Except.bind]
    exact finished_of_isProper (isProper_resultOf _ _ hstamp _ _ .usual) .usual
  · simp only [resultOf, houtcomes]
    rfl
  · simp only [resultOf, houtcomes]
    rfl

end Crate

end QueryLint.Project
