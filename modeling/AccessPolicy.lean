import AccessPolicy.Analysis.Conflicts
import AccessPolicy.Analysis.Declarations
import AccessPolicy.Analysis.Finding
import AccessPolicy.Analysis.References
import AccessPolicy.Analysis.Report
import AccessPolicy.Analysis.Risks
import AccessPolicy.Binary64.Basic
import AccessPolicy.Binary64.Shortest
import AccessPolicy.CallerContext
import AccessPolicy.CommandLine.Arguments
import AccessPolicy.CommandLine.Outcome
import AccessPolicy.CommandLine.Run
import AccessPolicy.Compilation
import AccessPolicy.Decimal
import AccessPolicy.Decision.Attributes
import AccessPolicy.Decision.Audit
import AccessPolicy.Decision.Basic
import AccessPolicy.Decision.Engine
import AccessPolicy.Decision.Permissions
import AccessPolicy.Decision.Publication
import AccessPolicy.Diagnostic
import AccessPolicy.Environment
import AccessPolicy.Expr.Basic
import AccessPolicy.Expr.Eval
import AccessPolicy.Expr.Reader
import AccessPolicy.Expr.Text
import AccessPolicy.Json.Basic
import AccessPolicy.Json.Decode
import AccessPolicy.Json.Reader
import AccessPolicy.Json.Schema
import AccessPolicy.Json.Text
import AccessPolicy.Main
import AccessPolicy.Manifest
import AccessPolicy.Moment
import AccessPolicy.NameIndex
import AccessPolicy.NameMap
import AccessPolicy.Options
import AccessPolicy.OptionsFile
import AccessPolicy.PolicySet.Basic
import AccessPolicy.PolicySet.Decode
import AccessPolicy.PolicySet.Generate
import AccessPolicy.PolicySet.Schema
import AccessPolicy.Program.Basic
import AccessPolicy.Program.Listing
import AccessPolicy.Program.Reader
import AccessPolicy.Proofs.AcceptedDocuments
import AccessPolicy.Proofs.AttributeChecks
import AccessPolicy.Proofs.AttributeReads
import AccessPolicy.Proofs.CompilationStages
import AccessPolicy.Proofs.CompiledPrograms
import AccessPolicy.Proofs.ConditionScopes
import AccessPolicy.Proofs.ConditionText
import AccessPolicy.Proofs.ConflictCoverage
import AccessPolicy.Proofs.ConflictReport
import AccessPolicy.Proofs.DecimalReading
import AccessPolicy.Proofs.DecimalSpelling
import AccessPolicy.Proofs.Decisions
import AccessPolicy.Proofs.DocumentErrors
import AccessPolicy.Proofs.Documents
import AccessPolicy.Proofs.ErrorLimit
import AccessPolicy.Proofs.ErrorRecovery
import AccessPolicy.Proofs.Exchange
import AccessPolicy.Proofs.ExprDerivations
import AccessPolicy.Proofs.ExprGrammar
import AccessPolicy.Proofs.FailingConditions
import AccessPolicy.Proofs.FirstDefinitions
import AccessPolicy.Proofs.GuestDeletion
import AccessPolicy.Proofs.GuestPolarity
import AccessPolicy.Proofs.Interpreter
import AccessPolicy.Proofs.Lexing
import AccessPolicy.Proofs.LineNumbers
import AccessPolicy.Proofs.LocalLexing
import AccessPolicy.Proofs.LocalReading
import AccessPolicy.Proofs.LocalStatements
import AccessPolicy.Proofs.MergedContexts
import AccessPolicy.Proofs.MissingAttributes
import AccessPolicy.Proofs.ParsedPrograms
import AccessPolicy.Proofs.PermissionView
import AccessPolicy.Proofs.PolicyOrder
import AccessPolicy.Proofs.ProgramDerivations
import AccessPolicy.Proofs.ProgramGrammar
import AccessPolicy.Proofs.ProgramReading
import AccessPolicy.Proofs.PropertyValues
import AccessPolicy.Proofs.RedundantRules
import AccessPolicy.Proofs.ReferentialClosure
import AccessPolicy.Proofs.RepeatedDefinitions
import AccessPolicy.Proofs.Requests
import AccessPolicy.Proofs.ResourcePatterns
import AccessPolicy.Proofs.ResourceReferences
import AccessPolicy.Proofs.Results
import AccessPolicy.Proofs.RoleGrants
import AccessPolicy.Proofs.RoleGuards
import AccessPolicy.Proofs.RuleMatching
import AccessPolicy.Proofs.SchemaConformance
import AccessPolicy.Proofs.Schemas
import AccessPolicy.Proofs.ScopeStack
import AccessPolicy.Proofs.Scopes
import AccessPolicy.Proofs.StatementChunks
import AccessPolicy.Proofs.StatementOrder
import AccessPolicy.Proofs.Strictness
import AccessPolicy.Proofs.Tokens
import AccessPolicy.Proofs.WellFormedPrograms
import AccessPolicy.ResourcePattern
import AccessPolicy.Shorter
import AccessPolicy.SymbolTable
import AccessPolicy.Text.Basic
import AccessPolicy.Text.Lowercase
import AccessPolicy.Text.Sha256
import AccessPolicy.Text.Visible
import AccessPolicy.Token.Basic
import AccessPolicy.Token.Lexeme
import AccessPolicy.Token.Unexpected
import AccessPolicy.Toml
import AccessPolicy.Value
