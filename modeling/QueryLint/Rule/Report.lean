import QueryLint.Code.Source
import QueryLint.Data.Shown
import QueryLint.Finding.Basic
import QueryLint.Rule.Info
import QueryLint.Text.Lines
import QueryLint.Text.Template

/-!
# Reports

A rule reports a violation by the id of a message, the data to fill the message with, and
proposals for replacements. A report is made whole or not at all: it fails if a message is not
among the rule's, or if a replacement does not lie in the source. Of several faults the first
counts, the proposals coming before the report itself, and in each proposal the message before the
replacement.
-/
namespace QueryLint.Rule

open QueryLint.Code QueryLint.Data QueryLint.Finding QueryLint.Text

/-- Why a report cannot be made. -/
inductive ReportError where
  | noMessage (ruleId messageId : String)
  | editOutOfBounds (start stop : Int)
  deriving DecidableEq, Repr

def ReportError.message : ReportError → String
  | .noMessage ruleId messageId =>
    s!"rule {Text.quoted ruleId} has no message {Text.quoted messageId}"
  | .editOutOfBounds start stop => s!"edit range out of bounds: [{start}, {stop})"

/-- A replacement of a node, or of a range of bytes. -/
inductive Replacement where
  | node (place : Place) (text : String)
  | range (start stop : Int) (text : String)

/-- The edit that a replacement of a source comes to. -/
def Replacement.edit (source : Source) : Replacement → Except ReportError Edit
  | .node place text => .ok ⟨place.start, place.stop, text⟩
  | .range start stop text =>
    if 0 ≤ start ∧ start ≤ stop ∧ stop ≤ byteLength source.text then .ok ⟨start, stop, text⟩
    else .error (.editOutOfBounds start stop)

/-- A replacement proposed along with a violation. Without data of its own its message is filled
with the violation's. -/
structure Proposal where
  messageId : String
  replacement : Replacement
  data : Members

/-- What a rule has to say of a place. -/
structure Violation where
  place : Place
  messageId : String
  data : Members
  proposals : List Proposal

/-- A violation with its messages filled. -/
structure Report where
  ruleId : String
  place : Place
  messageId : String
  message : String
  data : Members
  suggestions : List Suggestion

def fillMessage (template : String) (data : Members) : String :=
  fill template fun name => (Members.get? data name).map Value.shown

/-- The rule's message of an id, filled with data. -/
def messageOf (info : Info) (messageId : String) (data : Members) : Except ReportError String :=
  match info.messages.lookup messageId with
  | some template => .ok (fillMessage template data)
  | none => .error (.noMessage info.id messageId)

/-- The suggestion that a proposal for a violation with some data comes to. -/
def suggestionOf (info : Info) (source : Source) (data : Members) (p : Proposal) :
    Except ReportError Suggestion := do
  let message ← messageOf info p.messageId (if p.data.isEmpty then data else p.data)
  let edit ← p.replacement.edit source
  return ⟨p.messageId, message, edit⟩

def report (info : Info) (source : Source) (v : Violation) : Except ReportError Report := do
  let suggestions ← v.proposals.mapM (suggestionOf info source v.data)
  let message ← messageOf info v.messageId v.data
  return ⟨info.id, v.place, v.messageId, message, v.data, suggestions⟩

/-- A step that may fail and that keeps a list of reports. What it has kept stays when it fails. -/
abbrev Reporting := ExceptT ReportError (StateM (List Report))

/-- Reports a violation, and keeps the report behind those that are there. -/
def note (info : Info) (source : Source) (v : Violation) : Reporting Unit := do
  let r ← report info source v
  modify (· ++ [r])

theorem run_note (info : Info) (source : Source) (v : Violation) (kept : List Report) :
    (note info source v).run.run kept =
      match report info source v with
      | .ok r => (.ok (), kept ++ [r])
      | .error e => (.error e, kept) := by
  rw [note]
  cases report info source v <;> rfl

/-- The lines of a source from one row to another, without blanks at their ends, shortened if long.
The rows pick among the lines as they are shown. -/
def snippet (source : Source) (first last : Nat) : String :=
  let spanned := ((lines source.text.toList).take (last + 1)).drop first
  String.ofList (shorten shownLimit (joinReturns (trimChars (['\n'].intercalate spanned))))

/-- The finding that a report of a rule at some severity comes to, still without an id. -/
def Report.toFinding (info : Info) (severity : Severity) (source : Source) (r : Report) :
    Finding :=
  let start := source.startOf r.place
  let stop := source.stopOf r.place
  let snippet := snippet source start.row stop.row
  { id := ""
    ruleId := r.ruleId
    ruleType := info.type
    severity
    messageId := r.messageId
    message := r.message
    location :=
      { path := source.path
        lineStart := start.row + 1
        lineEnd := stop.row + 1
        columnStart := start.column + 1
        columnEnd := stop.column + 1 }
    fingerprint := fingerprintOf r.ruleId source.path (source.textOf r.place) snippet
    snippet
    data := r.data
    suggestions := r.suggestions }

end QueryLint.Rule
