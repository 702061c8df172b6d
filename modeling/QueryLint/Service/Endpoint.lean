import QueryLint.Lint.Text
import QueryLint.Result.Basic
import QueryLint.Service.Request

/-!
# Endpoints of the service

The service answers whether it is well and which rules it has, lints a source, and applies the
suggestions for it. A path with slashes at its end stands for the path without them.

Which endpoint a request leads to is what is documented of the web framework in use, and is taken over from
there: a path that leads nowhere is answered with the status 404, another method than the endpoint's with
405, a path with slashes at its end is redirected, and a failure that an endpoint does not turn into an
answer goes through to the server, which is no answer of the service.
-/
namespace QueryLint.Service

open QueryLint.Code QueryLint.Data QueryLint.Lint QueryLint.Text
open QueryLint.Finding (Severity)

/-- A request to the service. -/
structure Request where
  method : String
  path : String
  body : Option String

/-- An answer of the service. -/
structure Response where
  status : Nat
  body : Value

/-- What a path leads to. -/
inductive Endpoint where
  | info
  | health
  | readiness
  | rules
  | lint
  | suggest
  deriving DecidableEq, Repr

namespace Endpoint

def paths : List (String × Endpoint) :=
  [("/", info), ("/health", health), ("/ready", readiness), ("/rules", rules), ("/lint", lint),
   ("/lint/suggest", suggest)]

def method : Endpoint → String
  | lint => "POST"
  | suggest => "POST"
  | _ => "GET"

/-- A path without what follows its question mark or number sign. -/
def barePath (path : String) : String :=
  String.ofList (path.toList.takeWhile fun c => c != '?' && c != '#')

def withoutSlashes (path : String) : String :=
  String.ofList (path.toList.reverse.dropWhile (· == '/')).reverse

def find? (path : String) : Option Endpoint :=
  let path := barePath path
  (paths.lookup path).or (paths.lookup (withoutSlashes path))

end Endpoint

/-- An answer that says what went wrong. -/
def problem (status : Nat) (detail : Value) : Response := ⟨status, .object [("detail", detail)]⟩

/-- The answer for a source that cannot be linted. There is none where a rule fails for want of an
accessor, or of room for its calls. A fault of a name is told by the name of the encoding. -/
def textProblem (e : TextError) : Except Rule.Failure Response :=
  match e with
  | .lint (.failure (.noAccessor method)) => .error (.noAccessor method)
  | .lint (.failure (.tooDeep what)) => .error (.tooDeep what)
  | .lint (.stray _) => .ok (problem 422 (.text "utf-8"))
  | e => .ok (problem 422 (.text e.message))

variable (grammar : Grammar)

def answerLint (r : LintRequest) (depth : Option Nat := none) : Except Rule.Failure Response :=
  match lintText grammar r.source r.filename .default r.rules (.ofDepth depth) with
  | .error e => textProblem e
  | .ok findings =>
    let count (severity : Severity) : Value := .nat (findings.countP (·.severity = severity))
    .ok ⟨200, .object
      [("filename", .text r.filename),
       ("counts", .object
        [("total", .nat findings.length), ("errors", count .error), ("warnings", count .warn)]),
       ("findings", .list (findings.map Finding.toValue))]⟩

def answerSuggest (r : LintRequest) (depth : Option Nat := none) : Except Rule.Failure Response :=
  match Lint.suggest grammar r.source r.filename r.rules (.ofDepth depth) with
  | .error (.text e) => textProblem e
  | .error (.undecodable _) => .ok (problem 422 (.text "utf-8"))
  | .ok outcome => .ok ⟨200, .object
      [("filename", .text r.filename), ("source", .text outcome.text),
       ("applied", .nat outcome.applied), ("changed", .bool (outcome.text != r.source))]⟩

/-- Answers a request to lint, unless its body is no such request or its source is too long. -/
def answerBody (maxSourceBytes : Int) (body : Option String)
    (answer : LintRequest → Except Rule.Failure Response) : Except Rule.Failure Response :=
  match LintRequest.ofBody body with
  | .error (.faults faults) => .ok (problem 422 (.list (faults.map Fault.toValue)))
  | .error .unreadable => .ok (problem 400 (.text "There was an error parsing the body"))
  | .ok r =>
    let size := byteLength r.source
    if maxSourceBytes < size then
      .ok (problem 413 (.text s!"source is {size} bytes, limit is {maxSourceBytes}"))
    else answer r

def Endpoint.answer (maxSourceBytes : Int) (body : Option String) (depth : Option Nat) :
    Endpoint → Except Rule.Failure Response
  | info => .ok ⟨200, .object
      [("name", .text "query-audit API"), ("version", .text Result.toolVersion),
       ("docs", .text "disabled")]⟩
  | health => .ok ⟨200, .object [("status", .text "ok"), ("version", .text Result.toolVersion)]⟩
  | readiness => .ok ⟨200, .object
      [("status", .text "ready"), ("rules", .nat Rule.Registry.current.allIds.length)]⟩
  | rules => .ok ⟨200, .list (Rule.infos.map Rule.Info.toValue)⟩
  | lint => answerBody maxSourceBytes body (answerLint grammar · depth)
  | suggest => answerBody maxSourceBytes body (answerSuggest grammar · depth)

/-- The answer to a request, if there is room for so many calls inside each other. The case of the
method does not matter. -/
def handle (maxSourceBytes : Int) (request : Request) (depth : Option Nat := none) :
    Except Rule.Failure Response :=
  match Endpoint.find? request.path with
  | none => .ok (problem 404 (.text "Not Found"))
  | some endpoint =>
    if request.method.toUpper = endpoint.method then
      endpoint.answer grammar maxSourceBytes request.body depth
    else .ok (problem 405 (.text "Method Not Allowed"))

end QueryLint.Service
