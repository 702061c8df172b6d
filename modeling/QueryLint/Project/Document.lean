import QueryLint.Data.Json.Reader
import QueryLint.Files.Disk
import QueryLint.Schema.LintResult
import QueryLint.Text.Lines

/-!
# Checking a document

A document is a JSON file that is to be as a schema says.
-/
namespace QueryLint.Project

open QueryLint.Data QueryLint.Files QueryLint.Schema QueryLint.Text

/-- Why a document is not accepted. -/
inductive DocumentError where
  | path (error : PathError)
  | undecodable (fault : Utf8.Fault)
  | json (fault : Json.Fault)
  /-- A lint result is marked as something else. -/
  | wrongFormat (file : String) (mark : Value)
  | rejected (rejection : Rejection)

def DocumentError.message : DocumentError → String
  | path error => error.message
  | undecodable fault => fault.message
  | json fault => fault.message
  | wrongFormat file mark =>
    s!"{file}: expected schema_version={quoted formatName}, got {mark.quoted}"
  | rejected rejection => rejection.message

def readDocument (disk : Disk) (p : FilePath) : Except DocumentError Value := do
  let content ← (disk.read p).mapError fun e => .path ⟨e, p.toString⟩
  let text ← (decode content).mapError .undecodable
  (Json.read (String.ofList (plainNewlines text.toList))).mapError .json

def checkValue (schema : String) (v : Value) : Except DocumentError Unit :=
  (validate schema v).mapError .rejected

/-- Checks that a value is marked as a lint result. -/
def checkMark (p : FilePath) (v : Value) : Except DocumentError Unit :=
  match (v.get? "schema_version").getD .null with
  | .text s =>
    if s = formatName then .ok () else .error (.wrongFormat p.toString (.text s))
  | mark => .error (.wrongFormat p.toString mark)

/-- Checks a document against the schema of a name. A lint result has to be marked as one. -/
def checkDocument (disk : Disk) (p : FilePath) (schema : String) :
    Except DocumentError Unit := do
  let v ← readDocument disk p
  if schema = lintResultName then checkMark p v
  checkValue schema v

end QueryLint.Project
