import QueryLint.Command.Word

/-!
# Reading a command line

The words of a command line are taken one after the other: switches with their values, and plain
words into the slots that are still empty. Words that find no place are left over. A misuse ends
the reading, but what was given before it still counts.
-/
namespace QueryLint.Command

/-- What a command line gives. -/
inductive Given where
  | switch (s : Switch) (value : String)
  | slot (s : Slot) (word : String)
  /-- A command, with all words after its name. -/
  | command (name : String) (rest : List String)
  deriving DecidableEq, Repr

/-- What was read from a command line. -/
structure Reading where
  given : List Given
  /-- The words that found no place. -/
  leftOver : List String
  /-- The slots that no word was found for. -/
  empty : List Slot
  misuse : Option Misuse
  deriving DecidableEq, Repr

namespace Reading

/-- Nothing more to read. -/
def done (empty : List Slot) : Reading := ⟨[], [], empty, none⟩

/-- The end of a reading by a misuse. -/
def stopped (misuse : Misuse) : Reading := ⟨[], [], [], some misuse⟩

/-- The same after some things were given. -/
def giving (given : List Given) (r : Reading) : Reading := { r with given := given ++ r.given }

/-- The same after a word was left over. -/
def leaving (text : String) (r : Reading) : Reading := { r with leftOver := text :: r.leftOver }

end Reading

namespace Form

/-- The switches that share a word with one before them, and what is left of the word where a
letter is no switch. -/
def cluster (f : Form) (s : Switch) : List Char → Except Misuse (List Switch × Option String)
  | [] => .ok ([s], none)
  | '-' :: cs => .error (.unwantedValue s (String.ofList ('-' :: cs)))
  | '=' :: cs => .error (.unwantedValue s (String.ofList cs))
  | c :: cs =>
    match f.spellings.lookup (String.ofList ['-', c]) with
    | some next => do
      let (switches, rest) ← cluster f next cs
      return (s :: switches, rest)
    | none => .ok ([s], some (String.ofList ('-' :: c :: cs)))

/-- Reads words into slots. The mark belongs to the word that fills a slot right before or right
after it, and is left over without one. -/
def take (f : Form) (slots : List Slot) (afterSlot : Bool) : List Word → Reading
  | [] => .done slots
  | ⟨text, .unknown⟩ :: rest => (take f slots false rest).leaving text
  | ⟨_, .switch s (some value)⟩ :: rest =>
    if s.takesValue then (take f slots false rest).giving [.switch s value]
    else .stopped (.unwantedValue s value)
  | ⟨_, .switch s none⟩ :: rest =>
    if s.takesValue then
      match rest with
      | ⟨value, .plain⟩ :: rest => (take f slots false rest).giving [.switch s value]
      | _ => .stopped (.noValue s)
    else (take f slots false rest).giving [.switch s ""]
  | ⟨_, .cluster s tail⟩ :: rest =>
    match f.cluster s tail with
    | .error misuse => .stopped misuse
    | .ok (switches, none) =>
      (take f slots false rest).giving (switches.map fun s => .switch s "")
    | .ok (switches, some text) =>
      ((take f slots false rest).leaving text).giving (switches.map fun s => .switch s "")
  | ⟨text, .mark⟩ :: rest =>
    if afterSlot then take f slots false rest
    else match slots, rest with
      | .command :: slots, _ :: _ =>
        (Reading.done slots).giving [.command text (rest.map Word.text)]
      | _ :: _, _ :: _ => take f slots false rest
      | _, _ => (take f slots false rest).leaving text
  | ⟨text, .plain⟩ :: rest =>
    match slots with
    | [] => (take f [] false rest).leaving text
    | .command :: slots => (Reading.done slots).giving [.command text (rest.map Word.text)]
    | slot :: slots => (take f slots true rest).giving [.slot slot text]

def read (f : Form) (line : List String) : Reading :=
  match f.words line with
  | .ok words => f.take f.slots false words
  | .error misuse => .stopped misuse

end Form

end QueryLint.Command
