import QueryLint.Code.Trees
import QueryLint.Command.Run
import QueryLint.Data.Json.Reader
import Std.Time

/-!
# The program

Carries a command line out on the files at or below the current directory. The trees of the sources
and the values of the configuration files are read from the standard input when a project is to be
linted: an object with the lists `trees` and `yamls`.
-/
namespace QueryLint.Main

open QueryLint.Code QueryLint.Command QueryLint.Data QueryLint.Files QueryLint.Project
open QueryLint.Text

/-- The entries below a folder, with the names that lead to it. -/
partial def entriesBelow (folder : IO.FS.DirEntry) (names : List String) :
    IO (List (List String × Entry)) := do
  let mut entries := []
  for child in ← folder.path.readDir do
    let here := names ++ [child.fileName]
    match (← child.path.symlinkMetadata).type with
    | .dir => entries := (here, Entry.folder) :: (← entriesBelow child here) ++ entries
    | .file =>
      entries := (here, Entry.file (← IO.FS.readBinFile child.path).toList) :: entries
    | .symlink =>
      let target ← (IO.FS.realPath child.path).toBaseIO
      if let .ok target := target then
        entries := (here, Entry.link (.ofString target.toString)) :: entries
    | .other => pure ()
  return entries

/-- The disk below the current directory, with the folders that lead there. -/
def readDisk : IO Disk := do
  let current := FilePath.ofString (← IO.currentDir).toString
  let below ← entriesBelow ⟨current.toString, "."⟩ current.parts
  let above := (List.range current.parts.length).map fun n =>
    (current.parts.take (n + 1), Entry.folder)
  return ⟨above ++ below, current.parts⟩

/-- Writes the files that are new or have changed. -/
def writeChanges (before after : Disk) : IO Unit := do
  for (names, entry) in after.entries do
    if let .file content := entry then
      let isSame := match before.entryAt names with
        | some (.file old) => old == content
        | _ => false
      unless isSame do
        IO.FS.writeBinFile (FilePath.mk .root names).toString ⟨content.toArray⟩

def readEnvironment : IO Environment := do
  let mut set := []
  for name in [configVariable, deterministicVariable, buildVariable] do
    if let some value ← IO.getEnv name then set := set ++ [(name, value)]
  return set

/-- The lengths of the groups of digits in a random identifier. -/
def groupLengths : List Nat := [8, 4, 4, 4, 12]

/-- A random identifier, with hyphens between its groups of digits. -/
def randomId : IO String := do
  let bytes ← IO.getRandomBytes 16
  let mut digits := bytes.toList.flatMap fun b => hexDigits 2 b.toNat
  let mut groups := []
  for length in groupLengths do
    groups := groups ++ [String.ofList (digits.take length)]
    digits := digits.drop length
  return "-".intercalate groups

/-- A random identifier and the time. -/
def readStamp : IO Stamp := do
  let now := Std.Time.DateTime.ofTimestamp (← Std.Time.Timestamp.now) .UTC
  return ⟨← randomId, now.format "uuuu-MM-dd'T'HH:mm:ssxxx"⟩

/-- The trees and values from the standard input. -/
def readTables : IO Value := do
  match Json.read (← (← IO.getStdin).readToEnd) with
  | .ok v => return v
  | .error e => throw (.userError e.message)

end QueryLint.Main

open QueryLint.Code QueryLint.Command QueryLint.Data QueryLint.Project

def main (line : List String) : IO UInt32 := do
  let request := Request.ofLine line
  let tables ← match request with
    | .lint .. => QueryLint.Main.readTables
    | _ => pure .null
  let table (key : String) : Value := (tables.get? key).getD .null
  let setting : Setting :=
    { grammar := .ofValue (table "trees")
      yaml := .ofValue (table "yamls")
      environment := ← QueryLint.Main.readEnvironment
      stamp := ← QueryLint.Main.readStamp }
  let disk ← QueryLint.Main.readDisk
  let outcome := request.run setting disk .usual
  for said in outcome.said do
    match said with
    | .answer text => IO.print text
    | .remark text => IO.eprint text
  QueryLint.Main.writeChanges disk outcome.disk
  match outcome.ending with
  | .ok code => return code.toNat.toUInt32
  | .error e =>
    IO.eprintln e.message
    return 1
