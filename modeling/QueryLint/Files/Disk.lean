import QueryLint.Files.FilePath
import QueryLint.Text.Quoted
import QueryLint.Text.Utf8

/-!
# Disks

The content of a disk: files, folders and links, each under the names that lead to it from the
root. The root itself is a folder. A link stands for the path it holds, as seen from its own
folder; at most forty links are followed on the way to one place.
-/
namespace QueryLint.Files

open QueryLint.Text

/-- What stands at a place of a disk. -/
inductive Entry where
  | file (content : Bytes)
  | folder
  | link (target : FilePath)

/-- A disk, and the folder that relative paths start from. -/
structure Disk where
  entries : List (List String × Entry)
  current : List String

/-- Why something cannot be done on a disk. -/
inductive DiskError where
  | notFound
  | alreadyThere
  | notFolder
  | isFolder
  | tooManyLinks
  deriving DecidableEq, Repr

namespace DiskError

def code : DiskError → Nat
  | notFound => 2
  | alreadyThere => 17
  | notFolder => 20
  | isFolder => 21
  | tooManyLinks => 40

def text : DiskError → String
  | notFound => "No such file or directory"
  | alreadyThere => "File exists"
  | notFolder => "Not a directory"
  | isFolder => "Is a directory"
  | tooManyLinks => "Too many levels of symbolic links"

end DiskError

/-- An error with the path that was asked for. -/
structure PathError where
  error : DiskError
  path : String
  deriving DecidableEq, Repr

def PathError.message (e : PathError) : String :=
  s!"[Errno {e.error.code}] {e.error.text}: {quoted e.path}"

namespace Disk

/-- The number of links that are followed on the way to one place. -/
def linkLimit : Nat := 40

/-- What stands at the end of some names from the root. -/
def entryAt (disk : Disk) (names : List String) : Option Entry :=
  if names.isEmpty then some .folder else disk.entries.lookup names

/-- The end of a path: the names that lead there without links, and what is there. -/
structure Spot where
  names : List String
  entry : Option Entry

/-- Follows names from a folder. At most `links` links are followed. -/
def follow (disk : Disk) (links : Nat) (here : List String) :
    List String → Except DiskError Spot
  | [] => .ok ⟨here, disk.entryAt here⟩
  | name :: rest =>
    if name = ".." then follow disk links here.dropLast rest
    else match disk.entryAt (here ++ [name]) with
      | some .folder => follow disk links (here ++ [name]) rest
      | some (.file content) =>
        if rest.isEmpty then .ok ⟨here ++ [name], some (.file content)⟩ else .error .notFolder
      | none => if rest.isEmpty then .ok ⟨here ++ [name], none⟩ else .error .notFound
      | some (.link target) =>
        match links with
        | 0 => .error .tooManyLinks
        | links + 1 =>
          follow disk links (if target.isAbsolute then [] else here) (target.parts ++ rest)
  termination_by names => (links, names.length)

/-- The names that a path starts from. -/
def origin (disk : Disk) (p : FilePath) : List String :=
  if p.isAbsolute then [] else disk.current

def locate (disk : Disk) (p : FilePath) : Except DiskError Spot :=
  disk.follow linkLimit (disk.origin p) p.parts

/-- What is at the end of a path. -/
def stat (disk : Disk) (p : FilePath) : Except DiskError Entry :=
  match disk.locate p with
  | .ok ⟨_, some entry⟩ => .ok entry
  | .ok ⟨_, none⟩ => .error .notFound
  | .error e => .error e

/-- Whether there is anything at the end of a path. -/
def hasEntry (disk : Disk) (p : FilePath) : Bool := (disk.stat p).isOk

/-- Whether there is a file at the end of a path. -/
def isFile (disk : Disk) (p : FilePath) : Bool :=
  match disk.stat p with
  | .ok (.file _) => true
  | _ => false

/-- Whether there is a folder at the end of a path. -/
def isFolder (disk : Disk) (p : FilePath) : Bool :=
  match disk.stat p with
  | .ok .folder => true
  | _ => false

def read (disk : Disk) (p : FilePath) : Except DiskError Bytes :=
  match disk.stat p with
  | .ok (.file content) => .ok content
  | .ok _ => .error .isFolder
  | .error e => .error e

/-- The disk with an entry at the end of some names. -/
def put (disk : Disk) (names : List String) (entry : Entry) : Disk :=
  { disk with entries := (names, entry) :: disk.entries.filter (·.1 != names) }

/-- What is put somewhere is found there, and all else stays as it was. -/
theorem entryAt_put (disk : Disk) (names others : List String) (entry : Entry)
    (h : names ≠ []) :
    (disk.put names entry).entryAt others =
      if others = names then some entry else disk.entryAt others := by
  by_cases same : others = names
  · subst same
    simp [entryAt, put, h]
  · have away : ∀ entries : List (List String × Entry),
        (entries.filter (·.1 != names)).lookup others = entries.lookup others := by
      intro entries
      induction entries with
      | nil => rfl
      | cons e rest ih =>
        obtain ⟨key, value⟩ := e
        by_cases hk : key = names
        · subst hk
          have : (others == key) = false := by simp [same]
          simp [List.lookup_cons, this, ih]
        · by_cases ho : others = key <;> simp [List.lookup_cons, hk, ho, ih]
    have apart : (others == names) = false := by simp [same]
    simp [entryAt, put, List.lookup_cons, apart, same, away]

/-- The disk without what is at the end of some names, and below. -/
def remove (disk : Disk) (names : List String) : Disk :=
  { disk with entries := disk.entries.filter fun e => !names.isPrefixOf e.1 }

/-- The disk with a content in a file, which need not be there yet. -/
def write (disk : Disk) (p : FilePath) (content : Bytes) : Except DiskError Disk :=
  match disk.locate p with
  | .ok ⟨_, some .folder⟩ => .error .isFolder
  | .ok ⟨names, _⟩ => .ok (disk.put names (.file content))
  | .error e => .error e

/-- The names directly below a folder. -/
def namesIn (disk : Disk) (folder : List String) : List String :=
  disk.entries.filterMap fun e =>
    match e.1.getLast? with
    | some name => if e.1.dropLast = folder then some name else none
    | none => none

/-- The names directly below the folder at the end of a path, none if it is no folder. -/
def list (disk : Disk) (p : FilePath) : List String :=
  match disk.locate p with
  | .ok ⟨names, some .folder⟩ => disk.namesIn names
  | _ => []

/-- Makes the folder at the end of some names from a folder, and those on the way to it. `soFar`
is the path of the folder as it was asked for. -/
def makeFoldersFrom (disk : Disk) (here : List String) (soFar : FilePath) :
    List String → Except PathError Disk
  | [] => .ok disk
  | name :: rest =>
    let next := here ++ [name]
    let nextPath := soFar.child name
    let whole : FilePath := { soFar with parts := soFar.parts ++ name :: rest }
    let inTheWay : PathError :=
      ⟨if rest.isEmpty then .alreadyThere else .notFolder, whole.toString⟩
    if name = ".." then makeFoldersFrom disk here.dropLast nextPath rest
    else match disk.entryAt next with
      | none => makeFoldersFrom (disk.put next .folder) next nextPath rest
      | some .folder => makeFoldersFrom disk next nextPath rest
      | some (.file _) => .error inTheWay
      | some (.link _) =>
        match disk.locate nextPath with
        | .ok ⟨names, some .folder⟩ => makeFoldersFrom disk names nextPath rest
        | .ok ⟨_, some _⟩ => .error inTheWay
        | .ok ⟨_, none⟩ => .error ⟨.alreadyThere, nextPath.toString⟩
        | .error .tooManyLinks => .error ⟨.tooManyLinks, whole.toString⟩
        | .error _ => .error ⟨.alreadyThere, nextPath.toString⟩

/-- Makes the folder at the end of a path, and those on the way to it. -/
def makeFolders (disk : Disk) (p : FilePath) : Except PathError Disk :=
  disk.makeFoldersFrom (disk.origin p) { p with parts := [] } p.parts

/-- Names without double dots, each of which takes back the name before it. -/
def normalize (names : List String) : List String :=
  names.foldl (fun kept name => if name = ".." then kept.dropLast else kept ++ [name]) []

/-- Names with all links on the way replaced by what they stand for, as far as there are any.
`active` holds the links that are being replaced; where one of them comes up again, the rest is
left as it is, and the answer says so. At most `depth` links stand inside each other. -/
def unlink (disk : Disk) (depth : Nat) (active : List (List String)) (here : List String) :
    List String → List String × Bool
  | [] => (here, true)
  | name :: rest =>
    if name = ".." then unlink disk depth active here.dropLast rest
    else
      let next := here ++ [name]
      match disk.entryAt next with
      | some (.link target) =>
        match depth with
        | 0 => (next ++ rest, false)
        | depth' + 1 =>
          if active.contains next then (next ++ rest, false)
          else
            match unlink disk depth' (next :: active) (if target.isAbsolute then [] else here)
              target.parts with
            | (reached, true) => unlink disk (depth' + 1) active reached rest
            | (reached, false) => (reached ++ rest, false)
      | _ => unlink disk depth active next rest
  termination_by names => (depth, names.length)

/-- A path whose links lead nowhere but to each other. -/
structure LinkLoop where
  path : String
  deriving DecidableEq, Repr

def LinkLoop.message (e : LinkLoop) : String := "Symlink loop from " ++ quoted e.path

/-- The path from the root that leads to the same place without links. What is not there is left
as it is. -/
def resolve (disk : Disk) (p : FilePath) : Except LinkLoop FilePath :=
  let names := (disk.unlink (disk.entries.length + 1) [] (disk.origin p) p.parts).1
  let resolved : FilePath := ⟨.root, normalize names⟩
  match disk.stat resolved with
  | .error .tooManyLinks => .error ⟨resolved.toString⟩
  | _ => .ok resolved

def sameEntry (disk : Disk) (p q : FilePath) : Bool :=
  match disk.locate p, disk.locate q with
  | .ok ⟨a, some _⟩, .ok ⟨b, some _⟩ => a == b
  | _, _ => false

/-- Why a file cannot be copied. -/
inductive CopyError where
  | same (source target : String)
  | path (error : PathError)
  deriving DecidableEq, Repr

def CopyError.message : CopyError → String
  | .same source target => s!"{source} and {target} are the same file"
  | .path e => e.message

/-- A path as it is shown when it is the same as another. -/
def shownPath (p : FilePath) : String := s!"PosixPath({quoted p.toString})"

/-- The disk with the content of one file in another, or under its own name in a folder. -/
def copy (disk : Disk) (source target : FilePath) : Except CopyError Disk :=
  let inFolder := disk.isFolder target
  let target' := if inFolder then target.child source.name else target
  if disk.sameEntry source target' then
    .error (.same (shownPath source)
      (if inFolder then quoted target'.toString else shownPath target'))
  else match disk.read source with
    | .error e => .error (.path ⟨e, source.toString⟩)
    | .ok content =>
      match disk.write target' content with
      | .ok disk => .ok disk
      | .error e => .error (.path ⟨e, target'.toString⟩)

end Disk

end QueryLint.Files
