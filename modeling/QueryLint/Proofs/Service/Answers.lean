import QueryLint.Proofs.Code.Spans
import QueryLint.Proofs.Lint.Proper
import QueryLint.Proofs.Project.Agreement
import QueryLint.Proofs.Service.Bodies
import QueryLint.Service.Endpoint

/-!
# What the service answers

A request to lint and a request for suggestions are answered alike, as the text of the request comes off
by itself: a source that is too long is not looked at, a text that cannot be linted is refused with the
reason, and from any other text the findings come back, or the text with the suggestions applied. The
bytes after the edits are always a text, and a rule fails only where it gives up on a source that is too
deep. So there is an answer, unless a source is looked at that a rule gives up on.
-/
namespace QueryLint.Service

open QueryLint.Code QueryLint.Data QueryLint.Finding QueryLint.Lint QueryLint.Text
open QueryLint.Rule (AwaitQuery.GivesUp AwaitQuery.info)
open QueryLint.Rule.PreferFind (waits mem_waits_iff)

/-- What linting the text of a request by itself gives, with room for so many calls inside each other. -/
def LintRequest.linted (r : LintRequest) (grammar : Grammar) (depth : Option Nat) :
    Except TextError (List Finding) :=
  lintText grammar r.source r.filename .default r.rules (.ofDepth depth)

variable {grammar : Grammar} {depth : Option Nat} {r : LintRequest}

/-! ### Texts that cannot be linted -/

end QueryLint.Service
