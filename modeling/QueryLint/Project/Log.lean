/-!
# Logs

What a run notes down while it goes on. Each note has a level and says which part of the program
made it.
-/
namespace QueryLint.Project

/-- How much a note matters. -/
inductive Level where
  | debug
  | info
  | warning
  | error
  deriving DecidableEq, Repr

namespace Level

def name : Level → String
  | debug => "DEBUG"
  | info => "INFO"
  | warning => "WARNING"
  | error => "ERROR"

def isWarning : Level → Bool
  | warning => true
  | error => true
  | _ => false

end Level

/-- The parts of the program that make notes. -/
inductive Origin where
  | config
  | runner
  | linter
  | parser
  deriving DecidableEq, Repr

def Origin.name : Origin → String
  | config => "query_audit.core.config"
  | runner => "query_audit.core.runner"
  | linter => "query_audit.core.linter"
  | parser => "query_audit.js.parser"

/-- A note. -/
structure Note where
  level : Level
  origin : Origin
  text : String
  deriving DecidableEq, Repr

def Note.line (n : Note) : String := s!"{n.level.name} {n.origin.name}: {n.text}"

/-- What a step gives, with the notes it made before it came to its end. -/
structure Logged (α : Type) where
  notes : List Note
  outcome : α

namespace Logged

variable {α β ε : Type}

/-- Nothing noted. -/
def quiet (outcome : α) : Logged α := ⟨[], outcome⟩

/-- The same with other notes before its own. -/
def after (notes : List Note) (x : Logged α) : Logged α := { x with notes := notes ++ x.notes }

/-- Goes on with what a step gives, unless it failed. -/
def andThen (x : Logged (Except ε α)) (next : α → Logged (Except ε β)) : Logged (Except ε β) :=
  match x.outcome with
  | .ok a => (next a).after x.notes
  | .error e => ⟨x.notes, .error e⟩

@[simp] theorem outcome_after (notes : List Note) (x : Logged α) :
    (x.after notes).outcome = x.outcome := rfl

/-- What is noted on the way does not change what a sequence of steps gives. -/
@[simp] theorem outcome_andThen (x : Logged (Except ε α)) (next : α → Logged (Except ε β)) :
    (x.andThen next).outcome = x.outcome >>= fun a => (next a).outcome := by
  unfold andThen
  cases x.outcome <;> rfl

def mapError {δ : Type} (f : ε → δ) (x : Logged (Except ε α)) : Logged (Except δ α) :=
  ⟨x.notes, x.outcome.mapError f⟩

end Logged

end QueryLint.Project
