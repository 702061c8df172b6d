import QueryLint.Files.Disk
import QueryLint.Files.Wildcard

/-!
# Patterns for paths

A pattern is a relative path whose components may hold wildcards. Two stars by themselves stand
for a folder and all folders below it, not through links. A component that others follow stands
for folders only; so does the last one, if a slash follows it.
-/
namespace QueryLint.Files

/-- Why a text is no pattern. -/
inductive GlobError where
  | empty
  | absolute
  /-- Two stars stand next to other characters. -/
  | gluedStars
  /-- The pattern is the current folder. -/
  | noComponent
  /-- The pattern is the current folder with a slash behind it. -/
  | onlySlash
  deriving DecidableEq, Repr

def GlobError.message : GlobError → String
  | empty => "Unacceptable pattern: ''"
  | absolute => "Non-relative patterns are unsupported"
  | gluedStars => "Invalid pattern: '**' can only be an entire path component"
  | noComponent => "tuple index out of range"
  | onlySlash => "'_TerminatingSelector' object has no attribute 'select_from'"

def hasDoubleStar : List Char → Bool
  | '*' :: '*' :: _ => true
  | _ :: rest => hasDoubleStar rest
  | [] => false

/-- A component of a pattern. -/
inductive GlobPart where
  /-- The folder and all folders below it. -/
  | folders
  | parent
  /-- A component without wildcards. -/
  | name (s : String)
  /-- A component with wildcards. -/
  | wildcard (s : String)
  deriving DecidableEq, Repr

def GlobPart.ofString (s : String) : Except GlobError GlobPart :=
  if s = "**" then .ok folders
  else if s = ".." then .ok parent
  else if hasDoubleStar s.toList then .error .gluedStars
  else .ok (if hasWildcards s then wildcard s else name s)

/-- A pattern for paths. -/
structure Glob where
  parts : List GlobPart
  /-- Whether it stands for folders only. -/
  foldersOnly : Bool
  deriving DecidableEq, Repr

namespace Glob

def ofString (s : String) : Except GlobError Glob := do
  if s = "" then throw .empty
  let path := FilePath.ofString s
  if path.isAbsolute then throw .absolute
  let foldersOnly := s.toList.getLast? = some '/'
  if path.parts.isEmpty then throw (if foldersOnly then .onlySlash else .noComponent)
  return ⟨← path.parts.mapM GlobPart.ofString, foldersOnly⟩

/-- A folder and the folders below it, as names from the root together with the path by which
they are reached. At most `depth` folders lie inside each other. -/
def foldersBelow (disk : Disk) : Nat → List String → FilePath → List FilePath
  | 0, _, here => [here]
  | depth + 1, names, here =>
    here :: (disk.namesIn names).flatMap fun name =>
      match disk.entryAt (names ++ [name]) with
      | some .folder => foldersBelow disk depth (names ++ [name]) (here.child name)
      | _ => []

/-- The folder at the end of a path and the folders below it. -/
def allFolders (disk : Disk) (here : FilePath) : List FilePath :=
  match disk.locate here with
  | .ok ⟨names, _⟩ => foldersBelow disk (disk.entries.length + 1) names here
  | .error _ => [here]

/-- The paths that the parts of a pattern stand for as seen from a folder. -/
def expand (disk : Disk) (foldersOnly : Bool) (here : FilePath) : List GlobPart → List FilePath
  | [] => [here]
  | part :: more =>
    let isThere (p : FilePath) : Bool :=
      if more.isEmpty && !foldersOnly then disk.hasEntry p else disk.isFolder p
    match part with
    | .folders => (allFolders disk here).flatMap fun p => expand disk foldersOnly p more
    | .parent => expand disk foldersOnly (here.child "..") more
    | .name s =>
      if isThere (here.child s) then expand disk foldersOnly (here.child s) more else []
    | .wildcard s =>
      let fits (name : String) : Bool :=
        nameMatches s name && (more.isEmpty && !foldersOnly || disk.isFolder (here.child name))
      ((disk.list here).filter fits).flatMap fun name =>
        expand disk foldersOnly (here.child name) more

/-- The paths that a pattern stands for below a root, none if the root is no folder. -/
def paths (disk : Disk) (root : FilePath) (glob : Glob) : List FilePath :=
  if disk.isFolder root then expand disk glob.foldersOnly root glob.parts else []

end Glob

end QueryLint.Files
