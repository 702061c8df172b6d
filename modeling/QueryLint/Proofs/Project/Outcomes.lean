import QueryLint.Project.Run
import QueryLint.Proofs.Limits
import QueryLint.Proofs.Related

/-!
# What becomes of each file

A run goes through its files one by one, and what a file adds to the run depends on nothing but the file:
either its findings, or one error. So the findings and the errors of a whole run are those of its files,
in the order of the files.
-/
namespace QueryLint.Project

open QueryLint.Code QueryLint.Files QueryLint.Lint QueryLint.Result QueryLint.Text

/-- What a file comes to: its findings, or the error that is noted in their place. -/
abbrev FileOutcome := Except FileError (List Finding)

namespace FileOutcome

def findings : FileOutcome → List Finding
  | .ok findings => findings
  | .error _ => []

def error? : FileOutcome → Option FileError
  | .ok _ => none
  | .error e => some e

theorem error?_eq_some_iff {outcome : FileOutcome} {e : FileError} :
    outcome.error? = some e ↔ outcome = .error e := by
  cases outcome <;> simp [error?]

end FileOutcome

theorem loadSource_eq {grammar : Grammar} {disk : Disk} {p : FilePath} {name : String} {content : Bytes} (h : disk.read p = .ok content) :
    loadSource grammar disk p name =
      match decode content with
      | .error fault => .error (.undecodable fault)
      | .ok text =>
        match Language.detect p with
        | .error e => .error (.language e)
        | .ok language => .ok ⟨name, text, language, grammar language text⟩ := by
  rw [loadSource, h]
  cases hdecode : decode content with
  | error fault => simp only [Except.mapError, bind, Except.bind, hdecode]
  | ok text =>
    simp only [Except.mapError, bind, Except.bind, hdecode]
    cases Language.detect p <;> rfl

/-- What a source comes to. -/
def sourceOutcome (source : Source) (config : Config) (rules : Option (List String))
    (limits : Limits := .unlimited) : FileOutcome :=
  if source.hasErrors then
    .error ⟨source.path, parseError, "syntax error", source.firstErrorLine⟩
  else
    (lintSource source config rules limits).mapError fun e => ⟨source.path, ruleError, e.noted, 0⟩

variable (grammar : Grammar) (disk : Disk) (base : FilePath) (config : Config)
  (rules : Option (List String))

/-- What the file at a path comes to. -/
def fileOutcome (p : FilePath) (limits : Limits := .unlimited) : FileOutcome :=
  match loadSource grammar disk p (nameIn base p) with
  | .ok source => sourceOutcome source config rules limits
  | .error e => .error ⟨nameIn base p, readError, e.message, 0⟩

theorem findings_meet (t : Tally) (language : Language) :
    (t.meet language).findings = t.findings := by
  unfold Tally.meet
  split <;> rfl

theorem errors_meet (t : Tally) (language : Language) : (t.meet language).errors = t.errors := by
  unfold Tally.meet
  split <;> rfl

variable (limits : Limits)

/-- Linting a source adds what the source comes to. -/
theorem lint_eq (t : Tally) (source : Source) :
    (t.lint source config rules limits).findings =
        t.findings ++ (sourceOutcome source config rules limits).findings ∧
      (t.lint source config rules limits).errors =
        t.errors ++ (sourceOutcome source config rules limits).error?.toList := by
  rw [← findings_meet t source.language, ← errors_meet t source.language]
  simp only [Tally.lint, sourceOutcome]
  split
  · exact ⟨(List.append_nil _).symm, rfl⟩
  · rw [lintSource]
    cases Lint.run source config rules limits with
    | error e => exact ⟨(List.append_nil _).symm, rfl⟩
    | ok linted =>
      obtain ⟨findings, count⟩ := linted
      cases findings with
      | error e => exact ⟨(List.append_nil _).symm, rfl⟩
      | ok findings => exact ⟨rfl, (List.append_nil _).symm⟩

/-- Linting a file adds what the file comes to. -/
theorem lintFile_eq (t : Tally) (p : FilePath) :
    (Tally.lintFile grammar disk base config rules limits t p).findings =
        t.findings ++ (fileOutcome grammar disk base config rules p limits).findings ∧
      (Tally.lintFile grammar disk base config rules limits t p).errors =
        t.errors ++ (fileOutcome grammar disk base config rules p limits).error?.toList := by
  simp only [Tally.lintFile, fileOutcome]
  cases loadSource grammar disk p (nameIn base p) with
  | ok source => exact lint_eq config rules limits t source
  | error e => exact ⟨(List.append_nil _).symm, rfl⟩

/-- Linting some files adds what the files come to, in their order. -/
theorem lintFiles_eq (files : List FilePath) (t : Tally) :
    (files.foldl (Tally.lintFile grammar disk base config rules limits) t).findings =
        t.findings ++ (files.map (fileOutcome grammar disk base config rules · limits)).flatMap
          FileOutcome.findings ∧
      (files.foldl (Tally.lintFile grammar disk base config rules limits) t).errors =
        t.errors ++ (files.map (fileOutcome grammar disk base config rules · limits)).filterMap
          FileOutcome.error? := by
  induction files generalizing t with
  | nil => exact ⟨(List.append_nil _).symm, (List.append_nil _).symm⟩
  | cons p files ih =>
    obtain ⟨hfindings, herrors⟩ := lintFile_eq grammar disk base config rules limits t p
    obtain ⟨ihfindings, iherrors⟩ := ih (Tally.lintFile grammar disk base config rules limits t p)
    rw [List.foldl_cons, ihfindings, iherrors, hfindings, herrors, List.map_cons, List.flatMap_cons,
      List.append_assoc, List.append_assoc]
    refine ⟨rfl, congrArg _ ?_⟩
    rw [List.filterMap_cons]
    cases (fileOutcome grammar disk base config rules p limits).error? <;> rfl

/-- What all files of a task come to. -/
def outcomes (task : Task) (files : List FilePath) (limits : Limits := .unlimited) :
    List FileOutcome :=
  files.map (fileOutcome grammar disk (baseOf disk task.root) task.config task.rules · limits)

/-- The result of a task over its files, with the settings of its configuration as data. -/
def resultOf (task : Task) (files : List FilePath) (settings : Data.Members)
    (limits : Limits := .unlimited) : LintResult :=
  let stamp :=
    task.stamp.getD ⟨deterministicId disk (baseOf disk task.root) files limits, fixedTime⟩
  { runId := stamp.runId
    createdAt := stamp.createdAt
    toolVersion := Result.toolVersion
    engineVersion := Result.engineVersion
    config := ("root", .text task.root.toString) :: settings
    filesScanned := files.length
    findings := (outcomes grammar disk task files limits).flatMap FileOutcome.findings
    errors := (outcomes grammar disk task files limits).filterMap FileOutcome.error? }

/-- The disk after a result is written out, if it is. -/
def written (task : Task) (result : LintResult) (limits : Limits := .unlimited) :
    Except ProjectError Disk :=
  match task.outFolder with
  | none => .ok disk
  | some folder => (writeResult disk task.root folder result limits).outcome

/-- Without limits, every name can be written out. -/
theorem strayIn_unlimited (names : List String) (text : String) :
    strayIn .unlimited names text = none := by
  rw [strayIn, if_neg]
  simp [Limits.strayBytes?_unlimited]

/-- The end of a run with a result, which has to be as its schema demands. -/
def finished (task : Task) (result : LintResult) (limits : Limits := .unlimited) :
    Except ProjectError (LintResult × Disk) :=
  match Schema.check Schema.lintResult result.toValue with
  | none => (written disk task result limits).map (result, ·)
  | some violation => .error (.invalid violation)

/-- A run ends with the result that its files come to, once they are found and the configuration can
be shown as data. -/
theorem outcome_runTask (task : Task) :
    (runTask grammar disk task limits).outcome =
      (discover disk task.root task.config.included task.config.excluded
        task.config.maxFileBytes).mapError .discovery >>= fun files =>
      task.config.toMembers.mapError .notIterable >>= fun settings =>
      finished disk task (resultOf grammar disk task files settings limits) limits := by
  rw [runTask]
  cases discover disk task.root task.config.included task.config.excluded
    task.config.maxFileBytes with
  | error e => rfl
  | ok files =>
    obtain ⟨hfindings, herrors⟩ := lintFiles_eq grammar disk (baseOf disk task.root) task.config
      task.rules limits files
      ⟨[], [], [], [⟨.info, .runner, s!"Linting {files.length} file(s) under {task.root}"⟩]⟩
    simp only [Logged.outcome_andThen, assemble, hfindings, herrors, List.nil_append]
    cases task.config.toMembers with
    | error e => rfl
    | ok settings =>
      simp only [Except.mapError, bind, Except.bind, finished, resultOf, outcomes, written]
      cases Schema.check Schema.lintResult _ with
      | some violation => rfl
      | none =>
        cases task.outFolder with
        | none => rfl
        | some folder =>
          simp only [pure, Except.pure, Logged.outcome_andThen, bind, Except.bind]
          cases (writeResult disk task.root folder _ limits).outcome <;> rfl

variable {grammar disk limits}

/-- A run that ends with a result ends with that of some files. -/
theorem exists_of_runTask {disk' : Disk} {task : Task} {result : LintResult}
    (h : (runTask grammar disk task limits).outcome = .ok (result, disk')) :
    ∃ files settings, result = resultOf grammar disk task files settings limits := by
  rw [outcome_runTask] at h
  obtain ⟨files, -, h⟩ := bind_eq_ok_iff.mp h
  obtain ⟨settings, -, h⟩ := bind_eq_ok_iff.mp h
  refine ⟨files, settings, ?_⟩
  unfold finished at h
  split at h
  · cases hwritten : written disk task (resultOf grammar disk task files settings limits) limits with
    | ok disk' =>
      rw [hwritten] at h
      cases h
      rfl
    | error e =>
      rw [hwritten] at h
      cases h
  · cases h

end QueryLint.Project
