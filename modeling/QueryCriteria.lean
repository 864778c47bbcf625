import QueryCriteria.Text.Blank
import QueryCriteria.Text.Identifier
import QueryCriteria.Text.NameMap
import QueryCriteria.Decimal.Layout
import QueryCriteria.Decimal.Reading
import QueryCriteria.Calendar.Rfc3339
import QueryCriteria.Ulid
import QueryCriteria.Value.Display
import QueryCriteria.Json.Text
import QueryCriteria.Json.Number
import QueryCriteria.Value.JsonReader
import QueryCriteria.Model.Registry
import QueryCriteria.Error
import QueryCriteria.Config.Reading
import QueryCriteria.Scope.Basic
import QueryCriteria.Saturating
import QueryCriteria.Scope.Description
import QueryCriteria.Bindings
import QueryCriteria.Criteria.Operator
import QueryCriteria.Criteria.Skip
import QueryCriteria.Criteria.Window
import QueryCriteria.Criteria.Template
import QueryCriteria.Criteria.Target
import QueryCriteria.Criteria.Tree
import QueryCriteria.Compile.Error
import QueryCriteria.Criteria.Error
import QueryCriteria.Metrics.Counters
import QueryCriteria.Metrics.Report
import QueryCriteria.Metrics.Telemetry
import QueryCriteria.Criteria.Condition
import QueryCriteria.Criteria.Addition
import QueryCriteria.Criteria.Settings
import QueryCriteria.Workspace.Basic
import QueryCriteria.Workspace.Derive
import QueryCriteria.Compile.Clauses
import QueryCriteria.Compile.Draft
import QueryCriteria.Compile.Reference
import QueryCriteria.Compile.Basic
import QueryCriteria.Version
import QueryCriteria.Error.Json
import QueryCriteria.Proofs.Tree
import QueryCriteria.Proofs.Clauses
import QueryCriteria.Proofs.Fragments
import QueryCriteria.Proofs.TestFragments
import QueryCriteria.Proofs.Draft
import QueryCriteria.Proofs.Rendering
import QueryCriteria.Proofs.Refusals
import QueryCriteria.Proofs.ColumnOwners
import QueryCriteria.Proofs.Names
import QueryCriteria.Proofs.Aliases
import QueryCriteria.Proofs.Compilation
import QueryCriteria.Proofs.ScopeRun
import QueryCriteria.Proofs.BoundValues
import QueryCriteria.Proofs.Placeholders
import QueryCriteria.Proofs.Payload
import QueryCriteria.Proofs.Faults
import QueryCriteria.Proofs.Pieces
import QueryCriteria.Proofs.Sources
import QueryCriteria.Proofs.WellFormed
import QueryCriteria.Proofs.Growth
import QueryCriteria.Proofs.Soundness
import QueryCriteria.Proofs.Conditions
import QueryCriteria.Proofs.CopyLogic
import QueryCriteria.Proofs.Derivation
import QueryCriteria.Proofs.Session
import QueryCriteria.Proofs.BuiltPredicates
import QueryCriteria.Proofs.BuiltSessions
import QueryCriteria.Proofs.Relabelling
import QueryCriteria.Proofs.CopyRules
import QueryCriteria.Proofs.CopyTrail
import QueryCriteria.Proofs.Rebinding
import QueryCriteria.Proofs.FreshAliases
import QueryCriteria.Proofs.AliasSearch
import QueryCriteria.Proofs.DerivedCopy
import QueryCriteria.Proofs.Operations
import QueryCriteria.Proofs.Persistence
import QueryCriteria.Proofs.Recompilation
import QueryCriteria.Proofs.ForeignHandles
import QueryCriteria.Proofs.QueryBlocks
import QueryCriteria.Proofs.CompileSteps
import QueryCriteria.Proofs.AliasHistory
import QueryCriteria.Proofs.AliasAllocation
import QueryCriteria.Proofs.Guards
import QueryCriteria.Proofs.FreezeProtocol
import QueryCriteria.Proofs.CompileFrame
import QueryCriteria.Proofs.ColumnUses
import QueryCriteria.Proofs.Qualification
import QueryCriteria.Proofs.TemplateSpelling
import QueryCriteria.Proofs.Templates
import QueryCriteria.Proofs.Windows
import QueryCriteria.Proofs.Skeletons
import QueryCriteria.Proofs.Grouping
import QueryCriteria.Proofs.Tallies
import QueryCriteria.Proofs.LocalSessions
import QueryCriteria.Proofs.Outcomes
import QueryCriteria.Proofs.Additions
import QueryCriteria.Proofs.OwnedColumns
import QueryCriteria.Proofs.Ledgers
import QueryCriteria.Proofs.Metering
import QueryCriteria.Proofs.Modelled
import QueryCriteria.Proofs.WrittenClauses
import QueryCriteria.Proofs.Subqueries
import QueryCriteria.Proofs.AppendedConditions
import QueryCriteria.Proofs.Enrolment
import QueryCriteria.Proofs.LateBinding
import QueryCriteria.Proofs.Ancestry
import QueryCriteria.Proofs.PublicSessions
import QueryCriteria.Proofs.SelectLists
import QueryCriteria.Proofs.Registrations
import QueryCriteria.Proofs.LeastAlias
import QueryCriteria.Proofs.Scanning
import QueryCriteria.Proofs.Documents
import QueryCriteria.Proofs.Configurations
import QueryCriteria.Proofs.JsonTokens
import QueryCriteria.Proofs.Instants
import QueryCriteria.Proofs.Ulids
import QueryCriteria.Proofs.ValueTexts
