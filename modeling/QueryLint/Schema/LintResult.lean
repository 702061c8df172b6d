import QueryLint.Files.FilePath
import QueryLint.Schema.Basic

/-!
# The schema of lint results
-/
namespace QueryLint.Schema

open QueryLint.Data QueryLint.Files

/-- Fingerprints: a mark and 64 hexadecimal digits. A line feed at the end is overlooked. -/
def fingerprintPattern : Pattern where
  shown := "^sha256:[0-9a-f]\x7b64\x7d$"
  accepts cs :=
    let digits := cs.drop 7
    let body := if digits.getLast? = some '\n' then digits.dropLast else digits
    cs.take 7 == "sha256:".toList && body.length == 64 &&
      body.all fun c => '0' ≤ c && c ≤ '9' || 'a' ≤ c && c ≤ 'f'

def text : List Demand := [.type .string]

def nonEmptyText : List Demand := [.type .string, .nonEmpty]

/-- An integer that is not less than another. -/
def atLeast (n : Int) : List Demand := [.type .integer, .minimum n]

def location : List Demand :=
  [.type .object, .required ["path", "line_start", "line_end", "column_start", "column_end"],
   .properties
    [("path", text), ("line_start", atLeast 1), ("line_end", atLeast 1),
     ("column_start", atLeast 1), ("column_end", atLeast 1)]]

def textEdit : List Demand :=
  [.type .object, .required ["start", "end", "text"],
   .properties [("start", atLeast 0), ("end", atLeast 0), ("text", text)]]

def suggestion : List Demand :=
  [.type .object, .required ["message_id", "message", "edit"],
   .properties [("message_id", text), ("message", text), ("edit", textEdit)]]

def finding : List Demand :=
  [.type .object,
   .required
    ["finding_id", "rule_id", "rule_type", "severity", "message_id", "message", "location",
     "fingerprint"],
   .properties
    [("finding_id", nonEmptyText), ("rule_id", text),
     ("rule_type", [.oneOf ["problem", "suggestion"]]), ("severity", [.oneOf ["warn", "error"]]),
     ("message_id", text), ("message", text), ("location", location),
     ("fingerprint", [.type .string, .pattern fingerprintPattern]), ("snippet", text),
     ("data", [.type .object]), ("suggestions", [.type .array, .items suggestion])]]

def fileError : List Demand :=
  [.type .object, .required ["path", "kind", "message", "line"],
   .properties
    [("path", text), ("kind", [.oneOf ["parse_error", "read_error", "rule_error"]]),
     ("message", text), ("line", atLeast 0)]]

/-- How, when and by what a result was made. -/
def runInfo : List Demand :=
  [.type .object,
   .required ["run_id", "created_at", "tool_version", "engine_version", "config"],
   .properties
    [("run_id", nonEmptyText), ("created_at", nonEmptyText), ("tool_version", text),
     ("engine_version", text), ("config", [.type .object])]]

def counts : List Demand :=
  [.type .object, .required ["findings_total", "by_severity", "by_rule"],
   .properties
    [("findings_total", atLeast 0),
     ("by_severity", [.type .object, .keys [.oneOf ["warn", "error"]], .members (atLeast 0)]),
     ("by_rule", [.type .object, .members (atLeast 0)])]]

def summary : List Demand :=
  [.type .object, .required ["files_scanned", "files_with_errors", "counts"],
   .properties
    [("files_scanned", atLeast 0), ("files_with_errors", atLeast 0), ("counts", counts)]]

def formatName : String := "lint_result_v1"

def lintResultKeys : List String := ["schema_version", "run", "summary", "findings", "errors"]

def lintResult : List Demand :=
  [.type .object, .required lintResultKeys, .closed lintResultKeys,
   .properties
    [("schema_version", [.const formatName]), ("run", runInfo), ("summary", summary),
     ("findings", [.type .array, .items finding]), ("errors", [.type .array, .items fileError])]]

def lintResultName : String := "lint_result.schema.json"

def byName : List (String × List Demand) := [(lintResultName, lintResult)]

/-- Why a value is not accepted. -/
inductive Rejection where
  | noSchema (name : String)
  | violation (v : Violation)

def Rejection.message : Rejection → String
  | .noSchema name => "schema not found: " ++ name
  | .violation v => v.message

/-- The demands of the schema of a name, which may be written as any path to it. -/
def ofName? (name : String) : Option (List Demand) :=
  byName.lookup (FilePath.ofString name).toString

def validate (name : String) (v : Value) : Except Rejection Unit :=
  match ofName? name with
  | none => .error (.noSchema name)
  | some demands =>
    match check demands v with
    | none => .ok ()
    | some violation => .error (.violation violation)

end QueryLint.Schema
