import QueryLint.Finding.Edit
import QueryLint.Finding.Severity
import QueryLint.Text.Blank
import QueryLint.Text.Sha256

/-!
# Findings

What a rule found at a place of a source, ready to be shown: the place, the message, the lines
around it, and replacements that would mend it. A fingerprint tells findings apart that stay the
same when the lines around them move.
-/
namespace QueryLint.Finding

open QueryLint.Data QueryLint.Text

/-- A stretch of a source. Lines and columns count from one, columns in bytes. -/
structure Location where
  path : String
  lineStart : Int
  lineEnd : Int
  columnStart : Int
  columnEnd : Int
  deriving DecidableEq, Repr

def Location.toValue (l : Location) : Value :=
  .object
    [("path", .text l.path), ("line_start", .int l.lineStart), ("line_end", .int l.lineEnd),
     ("column_start", .int l.columnStart), ("column_end", .int l.columnEnd)]

/-- A replacement that would mend a finding. It is applied only on request. -/
structure Suggestion where
  messageId : String
  message : String
  edit : Edit
  deriving DecidableEq, Repr

def Suggestion.toValue (s : Suggestion) : Value :=
  .object
    [("message_id", .text s.messageId), ("message", .text s.message), ("edit", s.edit.toValue)]

end Finding

/-- A finding. -/
structure Finding where
  /-- Tells the finding from the others of its source. -/
  id : String
  ruleId : String
  ruleType : Finding.RuleType
  severity : Finding.Severity
  messageId : String
  message : String
  location : Finding.Location
  fingerprint : String
  /-- The lines of the source that the location spans. -/
  snippet : String
  /-- What the message was filled with. -/
  data : Data.Members
  suggestions : List Finding.Suggestion

namespace Finding

open QueryLint.Data QueryLint.Text

/-- The finding as data. The snippet, the data and the suggestions are left out when empty. -/
def toValue (f : Finding) : Value :=
  .object <|
    [("finding_id", .text f.id), ("rule_id", .text f.ruleId),
     ("rule_type", .text f.ruleType.name), ("severity", .text f.severity.name),
     ("message_id", .text f.messageId), ("message", .text f.message),
     ("location", f.location.toValue), ("fingerprint", .text f.fingerprint)] ++
    (if f.snippet = "" then [] else [("snippet", .text f.snippet)]) ++
    (if f.data.isEmpty then [] else [("data", .object f.data)]) ++
    (if f.suggestions.isEmpty then []
     else [("suggestions", .list (f.suggestions.map Suggestion.toValue))])

/-- The edit of the first suggestion of each finding that has one. -/
def firstEdits (findings : List Finding) : List Edit :=
  findings.filterMap fun f => f.suggestions.head?.map (·.edit)

/-- The fingerprint of a finding: the digest of the rule, the path with slashes only, the text of
the place, and the lines around it without blanks at their ends. -/
def fingerprintOf (ruleId path symbol snippet : String) : String :=
  let path := String.ofList (path.toList.map fun c => if c = '\\' then '/' else c)
  "sha256:" ++ sha256 (utf8 ("|".intercalate [ruleId, path, symbol, trim snippet]))

end Finding

end QueryLint
