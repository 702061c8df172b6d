import QueryLint.Proofs.Data.Json.RoundTrip
import QueryLint.Service.Request

/-!
# Bodies of requests

Whatever is to be linted, under whatever name and with whatever rules, there is a body that asks for it:
the request as an object, written in JSON.
-/
namespace QueryLint.Service

open QueryLint.Data

/-- A request as data. -/
def LintRequest.toValue (r : LintRequest) : Value :=
  .object [("source", .text r.source), ("filename", .text r.filename),
    ("rules", r.rules.elim .null Value.texts)]

variable (r : LintRequest)

end QueryLint.Service
