import QueryLint.Code.Walk
import QueryLint.Limits
import QueryLint.Query.CallSite
import QueryLint.Rule.Report

/-!
# Rules

A rule listens to a walk through a source. Each rule keeps notes of its own while the walk lasts:
the call sites it has yet to decide on, and the reports it has made.
-/
namespace QueryLint

namespace Rule

open QueryLint.Code QueryLint.Query

/-- Items that wait for the end of the walk, in the order in which they came. -/
structure Suspects (α : Type) where
  items : List α

namespace Suspects

variable {α : Type}

def none : Suspects α := ⟨[]⟩

def add (s : Suspects α) (item : α) : Suspects α := ⟨s.items ++ [item]⟩

/-- All items, each handed over once, and what is left. -/
def drain (s : Suspects α) : List α × Suspects α := (s.items, none)

@[simp] theorem items_none : (none : Suspects α).items = [] := rfl

@[simp] theorem items_add (s : Suspects α) (item : α) :
    (s.add item).items = s.items ++ [item] := rfl

/-- Items are handed over in the order in which they were added, and none stays behind. -/
@[simp] theorem drain_add (s : Suspects α) (item : α) :
    (s.add item).drain = (s.items ++ [item], none) := rfl

end Suspects

/-- Why a rule fails on a source. -/
inductive Failure where
  | report (error : ReportError)
  /-- The name of a query has no accessor. -/
  | noAccessor (method : String)
  | tooDeep (what : TooDeep)
  deriving DecidableEq, Repr

def Failure.message : Failure → String
  | .report error => error.message
  | .noAccessor _ => "list index out of range"
  | .tooDeep what => what.message

/-- What a rule keeps while it walks through a source. -/
structure Notes where
  suspects : Suspects CallSite
  reports : List Report

/-- The notes at the start of a walk. -/
def Notes.empty : Notes := ⟨.none, []⟩

def Notes.report (notes : Notes) (info : Info) (source : Source) (v : Violation) :
    Except Failure Notes :=
  match (note info source v).run.run notes.reports with
  | (.ok _, reports) => .ok { notes with reports }
  | (.error e, _) => .error (.report e)

theorem Notes.report_eq (notes : Notes) (info : Info) (source : Source) (v : Violation) :
    notes.report info source v =
      match Rule.report info source v with
      | .ok r => .ok { notes with reports := notes.reports ++ [r] }
      | .error e => .error (.report e) := by
  rw [Notes.report, run_note]
  cases Rule.report info source v <;> rfl

/-- What a rule does when it is called, within the limits of the run. -/
abbrev Listener := Limits → Source → Occasion → Notes → Except Failure Notes

end Rule

/-- A rule. -/
structure Rule where
  info : Rule.Info
  version : String
  listeners : Code.Registration Rule.Listener

end QueryLint
