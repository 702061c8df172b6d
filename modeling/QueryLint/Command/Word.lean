import QueryLint.Text.Digit
import QueryLint.Text.Quoted

/-!
# Words of a command line

A command line is a list of words. A word that begins with a hyphen is a switch, unless it spells a
negative number, holds a space or is the hyphen alone. A long switch may be cut short as long as no
other begins alike, and may carry a value after an equals sign; short switches may share a word.
After a word of two hyphens, the mark, every word is plain.
-/
namespace QueryLint.Command

open QueryLint.Text

/-- The switches of the commands. -/
inductive Switch where
  | help
  | version
  | json
  | deterministic
  | config
  | maxWarnings
  | applySuggestions
  | dryRun
  | verbose
  deriving DecidableEq, Repr

namespace Switch

def spellings : Switch → List String
  | help => ["-h", "--help"]
  | version => ["--version"]
  | json => ["--json"]
  | deterministic => ["--ci", "--deterministic"]
  | config => ["--config"]
  | maxWarnings => ["--max-warnings"]
  | applySuggestions => ["--apply-suggestions"]
  | dryRun => ["--dry-run"]
  | verbose => ["-v", "--verbose"]

def name (s : Switch) : String := "/".intercalate s.spellings

/-- Whether a switch needs a value. Only switches without a short spelling do. -/
def takesValue : Switch → Bool
  | config => true
  | maxWarnings => true
  | _ => false

end Switch

/-- The places for plain words. -/
inductive Slot where
  | path
  | command
  | document
  | schema
  deriving DecidableEq, Repr

namespace Slot

def name : Slot → String
  | path => "path"
  | command => "command"
  | document => "instance"
  | schema => "schema_name"

def isRequired (s : Slot) : Bool := s != command

end Slot

/-- The commands that have names. -/
inductive Verb where
  | rules
  | validate
  deriving DecidableEq, Repr

namespace Verb

def name : Verb → String
  | rules => "rules"
  | validate => "validate"

def all : List Verb := [rules, validate]

def ofName? (name : String) : Option Verb := all.find? (·.name = name)

end Verb

/-- What is wrong with a command line. -/
inductive Misuse where
  /-- A shortened switch that could be several. -/
  | ambiguous (word : String) (spellings : List String)
  | noValue (s : Switch)
  | unwantedValue (s : Switch) (value : String)
  | noInteger (s : Switch) (value : String)
  | noCommand (word : String)
  | unfilled (slots : List Slot)
  | leftOver (words : List String)
  deriving DecidableEq, Repr

def Misuse.message : Misuse → String
  | ambiguous word spellings =>
    s!"ambiguous option: {word} could match " ++ ", ".intercalate spellings
  | noValue s => s!"argument {s.name}: expected one argument"
  | unwantedValue s value => s!"argument {s.name}: ignored explicit argument {quoted value}"
  | noInteger s value => s!"argument {s.name}: invalid int value: {quoted value}"
  | noCommand word =>
    s!"argument {Slot.command.name}: invalid choice: {quoted word} " ++
      "(choose from " ++ ", ".intercalate (Verb.all.map fun v => quoted v.name) ++ ")"
  | unfilled slots =>
    "the following arguments are required: " ++ ", ".intercalate (slots.map Slot.name)
  | leftOver words => "unrecognized arguments: " ++ " ".intercalate words

/-- What a word is on a command line. -/
inductive Role where
  /-- The mark that only plain words follow. -/
  | mark
  | plain
  /-- A switch, with the value that came after an equals sign. -/
  | switch (s : Switch) (value : Option String)
  /-- A short switch with more in the same word. -/
  | cluster (s : Switch) (tail : List Char)
  /-- A switch that means nothing. -/
  | unknown
  deriving DecidableEq, Repr

/-- A word with its role. -/
structure Word where
  text : String
  role : Role
  deriving DecidableEq, Repr

/-- The form of a command line: the switches it may hold, and the slots that its plain words fill
in order. The command slot takes all words that are left. -/
structure Form where
  program : String
  switches : List Switch
  slots : List Slot
  deriving DecidableEq, Repr

/-- Whether some characters are decimal digits, and at least one. -/
def areDigits (cs : List Char) : Bool := !cs.isEmpty && cs.all fun c => (digitValue? c).isSome

/-- Whether a hyphen with some characters after it spells a negative number, perhaps with a line
feed at the end. -/
def spellsNegative (cs : List Char) : Bool :=
  let cs := if cs.getLast? = some '\n' then cs.dropLast else cs
  areDigits cs ||
    match cs.dropWhile fun c => (digitValue? c).isSome with
    | '.' :: places => areDigits places
    | _ => false

namespace Form

def spellings (f : Form) : List (String × Switch) :=
  f.switches.flatMap fun s => s.spellings.map (·, s)

/-- The role of a word that is no switch of the form. -/
def otherRole (text : String) : Role := if text.toList.contains ' ' then .plain else .unknown

/-- The role of a word with two hyphens in front, which is no exact spelling. -/
def longRole (f : Form) (text : String) : Except Misuse Role :=
  let spelling := String.ofList (text.toList.takeWhile (· != '='))
  let value := match text.toList.dropWhile (· != '=') with
    | _ :: rest => some (String.ofList rest)
    | [] => none
  match f.spellings.lookup spelling with
  | some s => .ok (.switch s value)
  | none =>
    match f.spellings.filter fun entry => spelling.toList.isPrefixOf entry.1.toList with
    | [] => .ok (otherRole text)
    | [entry] => .ok (.switch entry.2 value)
    | entries => .error (.ambiguous text (entries.map (·.1)))

def roleOf (f : Form) (text : String) : Except Misuse Role :=
  match text.toList with
  | '-' :: second :: tail =>
    match f.spellings.lookup text with
    | some s => .ok (.switch s none)
    | none =>
      if second = '-' then f.longRole text
      else match f.spellings.lookup (String.ofList ['-', second]) with
        | some s => .ok (.cluster s tail)
        | none => .ok (if spellsNegative (second :: tail) then .plain else otherRole text)
  | _ => .ok .plain

def words (f : Form) : List String → Except Misuse (List Word)
  | [] => .ok []
  | text :: rest =>
    if text = "--" then .ok (⟨text, .mark⟩ :: rest.map fun t => ⟨t, .plain⟩)
    else do return ⟨text, ← f.roleOf text⟩ :: (← words f rest)

end Form

end QueryLint.Command
