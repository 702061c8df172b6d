import QueryLint.Code.Language
import QueryLint.Data.Items
import QueryLint.Data.Quantity
import QueryLint.Data.Shown
import QueryLint.Files.Glob

/-!
# Finding the files of a project

A project is a folder or a single file. Of a folder those files are looked at that one of the
patterns stands for, that no excluded name leads to, that are in a known language, and that are
not too large. They are listed once each, in the order of their paths.

Patterns, excluded names and the size limit are given as data and checked as they are used.
-/
namespace QueryLint.Project

open QueryLint.Code QueryLint.Data QueryLint.Files

def alwaysExcluded : List String :=
  [".git", ".github", ".venv", "venv", "node_modules", "dist", "build", "coverage", ".next",
   ".cache", ".turbo"]

/-- The pattern that is used where none is given. -/
def fallbackPattern : String := "**/*.test.js"

/-- Why the files cannot be listed. -/
inductive DiscoveryError where
  | glob (error : GlobError)
  | notIterable (error : NotIterable)
  /-- An excluded name is a list or an object. -/
  | unhashable (typeName : String)
  /-- The size limit is no number. -/
  | limitNoNumber (typeName : String)
  /-- A pattern is nothing at all. -/
  | unacceptable (pattern : Value)
  /-- A pattern is a number or a truth value. -/
  | patternNumber (typeName : String)
  /-- A pattern is a list or an object. -/
  | patternNoText (typeName : String)
  | linkLoop (error : Disk.LinkLoop)

def DiscoveryError.message : DiscoveryError → String
  | glob error => error.message
  | notIterable error => error.message
  | unhashable typeName => s!"unhashable type: '{typeName}'"
  | limitNoNumber typeName =>
    s!"'>' not supported between instances of 'int' and '{typeName}'"
  | unacceptable pattern => "Unacceptable pattern: " ++ pattern.quoted
  | patternNumber typeName => s!"'{typeName}' object is not subscriptable"
  | patternNoText typeName => s!"intern() argument must be str, not {typeName}"
  | linkLoop error => error.message

/-- The names in a list of excluded names. Other items exclude nothing. -/
def namesAmong : List Value → Except DiscoveryError (List String)
  | [] => .ok []
  | .text s :: rest => (namesAmong rest).map (s :: ·)
  | .list _ :: _ => .error (.unhashable "list")
  | .object _ :: _ => .error (.unhashable "dict")
  | _ :: rest => namesAmong rest

def excludedNames (excluded : Value) : Except DiscoveryError (List String) :=
  if excluded.isTruthy then
    match excluded.items with
    | .ok items => (namesAmong items).map (alwaysExcluded ++ ·)
    | .error e => .error (.notIterable e)
  else .ok alwaysExcluded

def patternsOf (included : Value) : Except DiscoveryError (List Value) :=
  if included.isTruthy then included.items.mapError .notIterable
  else .ok [.text fallbackPattern]

def globOf (pattern : Value) : Except DiscoveryError Glob :=
  if !pattern.isTruthy then .error (.unacceptable pattern)
  else match pattern with
    | .text s => (Glob.ofString s).mapError .glob
    | .list _ => .error (.patternNoText "list")
    | .object _ => .error (.patternNoText "dict")
    | v => .error (.patternNumber v.typeName)

/-- Whether a file of some size is too large. Without a limit none is. -/
def isTooLarge (limit : Value) (size : Nat) : Except DiscoveryError Bool :=
  match limit with
  | .null => .ok false
  | v =>
    match v.quantity? with
    | some x => .ok (x.lt (.ratio size 1))
    | none => .error (.limitNoNumber v.typeName)

/-- Whether a path has a suffix of a known language. -/
def isSupported (p : FilePath) : Bool := Language.isSupported (Text.lower p.suffix)

/-- The path to list for a path that a pattern stands for, if it is to be listed. -/
def candidate? (disk : Disk) (root : FilePath) (excluded : List String) (limit : Value)
    (p : FilePath) : Except DiscoveryError (Option FilePath) :=
  if ((p.below? root).getD []).any excluded.contains then .ok none
  else match disk.stat p with
    | .ok (.file content) =>
      if !isSupported p then .ok none
      else do
        if ← isTooLarge limit content.length then return none
        return some (← (disk.resolve p).mapError .linkLoop)
    | _ => .ok none

/-- The paths that a pattern stands for below a root. -/
def globPaths (disk : Disk) (root : FilePath) (pattern : Value) :
    Except DiscoveryError (List FilePath) := do
  return (← globOf pattern).paths disk root

/-- The paths to list among those that some patterns stand for. -/
def candidates (paths : Value → Except DiscoveryError (List FilePath)) (disk : Disk)
    (root : FilePath) (excluded : List String) (limit : Value) :
    List Value → Except DiscoveryError (List FilePath)
  | [] => .ok []
  | pattern :: patterns => do
    let found ← (← paths pattern).mapM (candidate? disk root excluded limit)
    return found.filterMap (·) ++ (← candidates paths disk root excluded limit patterns)

/-- The files of a project, where `paths` tells what a pattern stands for. -/
def discoverBy (paths : Value → Except DiscoveryError (List FilePath)) (disk : Disk)
    (root : FilePath) (included excluded limit : Value) : Except DiscoveryError (List FilePath) :=
  if disk.isFile root then
    if isSupported root then do return [← (disk.resolve root).mapError .linkLoop] else .ok []
  else do
    let excluded ← excludedNames excluded
    let patterns ← patternsOf included
    let found ← candidates paths disk root excluded limit patterns
    return found.eraseDups.mergeSort FilePath.le

/-- The files of a project, as paths from the root of the disk. -/
def discover (disk : Disk) (root : FilePath) (included excluded limit : Value) :
    Except DiscoveryError (List FilePath) :=
  discoverBy (globPaths disk root) disk root included excluded limit

end QueryLint.Project
