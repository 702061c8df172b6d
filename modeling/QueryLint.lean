import QueryLint.Main
import QueryLint.Data.Artifact
import QueryLint.Service.Endpoint
import QueryLint.Service.Settings
import QueryLint.Proofs.Code.Preorder
import QueryLint.Proofs.Code.WellFormed
import QueryLint.Proofs.Binding.Uses
import QueryLint.Proofs.Binding.Shadowing
import QueryLint.Proofs.Code.Owners
import QueryLint.Proofs.Query.Handling
import QueryLint.Proofs.Code.Walk
import QueryLint.Proofs.Lint.Single
import QueryLint.Proofs.Rule.AwaitQuery
import QueryLint.Proofs.Rule.PreferFind
import QueryLint.Proofs.Lint.Independence
import QueryLint.Proofs.Lint.Suggest
import QueryLint.Proofs.Finding.Replacement
import QueryLint.Proofs.Lint.Rewriting
import QueryLint.Proofs.Lint.Rounds
import QueryLint.Proofs.Lint.Checking
import QueryLint.Proofs.Lint.Failure
import QueryLint.Proofs.Lint.Locations
import QueryLint.Proofs.Lint.Comments
import QueryLint.Proofs.Lint.Parentheses
import QueryLint.Proofs.Result.Conformance
import QueryLint.Proofs.Project.Validity
import QueryLint.Proofs.Project.Agreement
import QueryLint.Proofs.Command.Applying
import QueryLint.Proofs.Data.Json.Canonical
import QueryLint.Proofs.Service.Answers
import QueryLint.Proofs.Query.Replacement
import QueryLint.Proofs.Query.Navigation
import QueryLint.Proofs.Project.SyntaxErrors
import QueryLint.Proofs.Project.Reporting
import QueryLint.Proofs.Lint.Snippets
import QueryLint.Proofs.Rule.Messages
import QueryLint.Proofs.Rule.Reports
import QueryLint.Proofs.Rule.Registry
import QueryLint.Proofs.Query.Name
import QueryLint.Proofs.Project.Listing
import QueryLint.Proofs.Project.Digest
import QueryLint.Proofs.Project.Settings
