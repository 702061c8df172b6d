import QueryLint.Data.Json.Reader
import QueryLint.Lint.Text

/-!
# Requests to lint

The body of a request is JSON, an object with a source, a file name and a list of rules. Each
fault is noted with the place where it lies; other members are overlooked.

The fields and their defaults are those of the request model. How a body is held against a request model is
what is documented of the web framework in use, and is taken over from there: a body that is missing, empty
or null counts as a missing member; a text is not made out of any other value; an optional list may be
null; all faults are told at once, in the order of the fields, each with its type and the way to it.
-/
namespace QueryLint.Service

open QueryLint.Data

/-- What a request asks to be linted. -/
structure LintRequest where
  source : String
  filename : String
  rules : Option (List String)
  deriving DecidableEq, Repr

/-- What is wrong at some place of a body. -/
inductive FaultType where
  | missing
  | noString
  | noList
  | noObject
  | noJson
  deriving DecidableEq, Repr

def FaultType.name : FaultType → String
  | missing => "missing"
  | noString => "string_type"
  | noList => "list_type"
  | noObject => "model_attributes_type"
  | noJson => "json_invalid"

/-- A fault of a body, with the way to where it lies. -/
structure Fault where
  type : FaultType
  location : List Value

def Fault.toValue (f : Fault) : Value :=
  .object [("type", .text f.type.name), ("loc", .list (.text "body" :: f.location))]

/-- Why a body is no request. -/
inductive BodyError where
  | faults (faults : List Fault)
  /-- The body holds a number that is too long to be read. -/
  | unreadable

/-- The source of a request, which has to be there. -/
def sourceField (members : Members) : Except (List Fault) String :=
  match Members.get? members "source" with
  | some (.text s) => .ok s
  | some _ => .error [⟨.noString, [.text "source"]⟩]
  | none => .error [⟨.missing, [.text "source"]⟩]

def filenameField (members : Members) : Except (List Fault) String :=
  match Members.get? members "filename" with
  | some (.text s) => .ok s
  | some _ => .error [⟨.noString, [.text "filename"]⟩]
  | none => .ok Lint.defaultFilename

/-- The rules among some items, and a fault for each item that is none. -/
def ruleItems : Nat → List Value → List String × List Fault
  | _, [] => ([], [])
  | i, v :: vs =>
    let (rules, faults) := ruleItems (i + 1) vs
    match v with
    | .text s => (s :: rules, faults)
    | _ => (rules, ⟨.noString, [.text "rules", .nat i]⟩ :: faults)

def rulesField (members : Members) : Except (List Fault) (Option (List String)) :=
  match Members.get? members "rules" with
  | none => .ok none
  | some .null => .ok none
  | some (.list items) =>
    match ruleItems 0 items with
    | (rules, []) => .ok (some rules)
    | (_, faults) => .error faults
  | some _ => .error [⟨.noList, [.text "rules"]⟩]

def faultsOf {α : Type} : Except (List Fault) α → List Fault
  | .ok _ => []
  | .error faults => faults

def LintRequest.ofMembers (members : Members) : Except (List Fault) LintRequest :=
  match sourceField members, filenameField members, rulesField members with
  | .ok source, .ok filename, .ok rules => .ok ⟨source, filename, rules⟩
  | source, filename, rules => .error (faultsOf source ++ faultsOf filename ++ faultsOf rules)

/-- The request that a body makes. A byte order mark at its beginning is overlooked. -/
def LintRequest.ofBody (body : Option String) : Except BodyError LintRequest :=
  let missing : BodyError := .faults [⟨.missing, []⟩]
  match body with
  | none => .error missing
  | some "" => .error missing
  | some s =>
    let text := match s.toList with
      | '\uFEFF' :: rest => String.ofList rest
      | _ => s
    match Json.read text with
    | .error (.flaw _ offset _ _) => .error (.faults [⟨.noJson, [.nat offset]⟩])
    | .error (.tooManyDigits _) => .error .unreadable
    | .ok .null => .error missing
    | .ok (.object members) => (ofMembers members).mapError .faults
    | .ok _ => .error (.faults [⟨.noObject, []⟩])

end QueryLint.Service
