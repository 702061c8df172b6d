import QueryLint.Command.Reading
import QueryLint.Files.FilePath
import QueryLint.Text.Integer

/-!
# Requests

What a command line asks for. The first word that begins without a hyphen decides how the line is
read: if it is no command it is the path to lint, and otherwise the command, with a form of its own
for the words after it.
-/
namespace QueryLint.Command

open QueryLint.Files QueryLint.Text

def programName : String := "query-audit"

def lintSwitches : List Switch :=
  [.json, .deterministic, .config, .maxWarnings, .applySuggestions, .dryRun, .verbose]

/-- The form of a line that names a path. -/
def pathForm : Form := ⟨programName, .help :: lintSwitches, [.path]⟩

/-- The form of a line that names a command or nothing. -/
def commandForm : Form := ⟨programName, .help :: .version :: lintSwitches, [.command]⟩

/-- The form of the words after a command's name. -/
def formOf (verb : Verb) : Form :=
  let program := programName ++ " " ++ verb.name
  match verb with
  | .rules => ⟨program, [.help, .json], []⟩
  | .validate => ⟨program, [.help], [.document, .schema]⟩

/-- The settings of the lint command. -/
structure LintSettings where
  json : Bool
  deterministic : Bool
  config : Option FilePath
  maxWarnings : Option Int
  applySuggestions : Bool
  dryRun : Bool
  verbose : Bool

/-- What a command line asks for. -/
inductive Request where
  | help (form : Form)
  | version
  | misuse (program : String) (misuse : Misuse)
  /-- There is neither a path nor a command. -/
  | nothing
  | lint (path : FilePath) (settings : LintSettings)
  | rules (json : Bool)
  | validate (document : FilePath) (schema : String)

namespace Reading

def has (r : Reading) (s : Switch) : Bool :=
  r.given.any fun
    | .switch t _ => s = t
    | _ => false

/-- The last value of a switch. -/
def valueOf? (r : Reading) (s : Switch) : Option String :=
  r.given.foldl (fun last given => match given with
    | .switch t value => if s = t then some value else last
    | _ => last) none

def wordAt? (r : Reading) (s : Slot) : Option String :=
  r.given.findSome? fun
    | .slot t word => if s = t then some word else none
    | _ => none

def settings (r : Reading) : LintSettings where
  json := r.has .json
  deterministic := r.has .deterministic
  config := (r.valueOf? .config).map FilePath.ofString
  maxWarnings := (r.valueOf? .maxWarnings).bind fun s => (readInteger s).toOption
  applySuggestions := r.has .applySuggestions
  dryRun := r.has .dryRun
  verbose := r.has .verbose

/-- The request that a thing given makes by itself, whatever comes after it. -/
def requestOf? (form : Form) : Given → Option Request
  | .switch .help _ => some (.help form)
  | .switch .version _ => some .version
  | .switch .maxWarnings value =>
    match readInteger value with
    | .ok _ => none
    | .error _ => some (.misuse form.program (.noInteger .maxWarnings value))
  | .command name _ =>
    match Verb.ofName? name with
    | some _ => none
    | none => some (.misuse form.program (.noCommand name))
  | _ => none

/-- The misuse that a reading ends with. -/
def fault? (r : Reading) : Option Misuse :=
  match r.misuse, r.empty.filter Slot.isRequired with
  | some misuse, _ => some misuse
  | none, [] => none
  | none, slots => some (.unfilled slots)

/-- The request of a reading that is not to be carried out: the first thing given that is one by
itself, or a misuse at its end. -/
def early? (form : Form) (r : Reading) : Option Request :=
  (r.given.findSome? (requestOf? form)).or (r.fault?.map (.misuse form.program))

/-- The command and the words after it. -/
def command? (r : Reading) : Option (Verb × List String) :=
  r.given.findSome? fun
    | .command name rest => (Verb.ofName? name).map (·, rest)
    | _ => none

end Reading

/-- A request, unless words are left over. -/
def unlessLeftOver (words : List String) (request : Request) : Request :=
  if words.isEmpty then request else .misuse programName (.leftOver words)

/-- The request of the words after a command's name, where some words before it were left over. -/
def ofCommand (before : List String) (verb : Verb) (line : List String) : Request :=
  let form := formOf verb
  let r := form.read line
  let word (slot : Slot) : String := (r.wordAt? slot).getD ""
  match r.early? form with
  | some request => request
  | none =>
    unlessLeftOver (before ++ r.leftOver) <|
      match verb with
      | .rules => .rules (r.has .json)
      | .validate => .validate (.ofString (word .document)) (word .schema)

/-- Whether a line is read as one that names a path. -/
def namesPath (line : List String) : Bool :=
  match line.find? fun word => word.toList.head? != some '-' with
  | some word => word != "" && (Verb.ofName? word).isNone
  | none => false

def Request.ofLine (line : List String) : Request :=
  let form := if namesPath line then pathForm else commandForm
  let r := form.read line
  match r.early? form, r.command? with
  | some request, _ => request
  | none, some (verb, rest) => ofCommand r.leftOver verb rest
  | none, none =>
    unlessLeftOver r.leftOver <|
      match r.wordAt? .path with
      | some path => .lint (.ofString path) r.settings
      | none => .nothing

end QueryLint.Command
