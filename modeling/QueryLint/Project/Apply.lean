import QueryLint.Files.Disk
import QueryLint.Finding.Basic

/-!
# Applying suggestions to a file

The first suggestion of each finding is applied to the file, as far as they go together. A copy of
the file is kept under its name with a suffix of its own, if wanted, and is made before the file
is changed. What cannot be done is told in the outcome.

Files are reached through four operations, each of which may fail and then changes nothing.
-/
namespace QueryLint.Project

open QueryLint.Files QueryLint.Finding QueryLint.Text

/-- The operations on files, in a state that they change. Failures come as their wording. -/
structure FileAccess (σ : Type) where
  hasEntry : σ → FilePath → Bool
  read : σ → FilePath → Except String Bytes
  /-- Copies one file to another. -/
  copy : σ → FilePath → FilePath → Except String σ
  write : σ → FilePath → Bytes → Except String σ

def diskAccess : FileAccess Disk where
  hasEntry := Disk.hasEntry
  read disk p := (disk.read p).mapError fun e => (PathError.mk e p.toString).message
  copy disk p q := (disk.copy p q).mapError Disk.CopyError.message
  write disk p content :=
    (disk.write p content).mapError fun e => (PathError.mk e p.toString).message

/-- What came of applying suggestions. -/
structure Applied where
  applied : Nat
  skipped : Nat
  /-- The copy that was made. -/
  backup : Option FilePath
  errors : List String

def Applied.success (a : Applied) : Bool := a.errors.isEmpty

def backupSuffix : String := ".bak"

variable {σ : Type} (access : FileAccess σ)

/-- Writes a file, after a copy was made if one was. -/
def writeContent (state : σ) (p : FilePath) (content : Bytes) (a : Applied) : Applied × σ :=
  match access.write state p content with
  | .ok state => (a, state)
  | .error e => ({ a with errors := ["Error writing file: " ++ e] }, state)

/-- Copies a file if wanted, and writes it. -/
def replaceContent (state : σ) (p : FilePath) (content : Bytes) (createBackup : Bool)
    (a : Applied) : Applied × σ :=
  if createBackup then
    let backup := p.extendName backupSuffix
    match access.copy state p backup with
    | .ok state => writeContent access state p content { a with backup := some backup }
    | .error e => ({ a with errors := ["Error creating backup: " ++ e] }, state)
  else writeContent access state p content a

/-- Applies the suggestions of some findings to a file. In a dry run the file is left as it is.
Edits that cut characters in two may leave bytes that are no text, and then fail as a whole. -/
def applySuggestions (state : σ) (p : FilePath) (findings : List Finding)
    (createBackup dryRun : Bool) : Except Utf8.Fault (Applied × σ) :=
  let failed (error : String) : Applied := ⟨0, 0, none, [error]⟩
  if access.hasEntry state p then
    match access.read state p with
    | .error e => .ok (failed ("Error reading file: " ++ e), state)
    | .ok content =>
      match decode content with
      | .error fault => .ok (failed ("Error reading file: " ++ fault.message), state)
      | .ok text =>
        (Edit.applyAll text (firstEdits findings)).map fun outcome =>
          let a : Applied := ⟨outcome.applied, outcome.skipped, none, []⟩
          if dryRun ∨ outcome.applied = 0 then (a, state)
          else replaceContent access state p (utf8 outcome.text) createBackup a
  else .ok (failed s!"File not found: {p}", state)

end QueryLint.Project
