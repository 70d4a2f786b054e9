/-
Migrations of GraphQL schema definitions and documents in scripts.

A migration reads a script, finds the schema definitions or the documents
in it and answers with the text in which they are brought up to date.
-/
import GraphMigrate.CommandLine.Arguments
import GraphMigrate.CommandLine.Report
import GraphMigrate.CommandLine.Session
import GraphMigrate.CommandLine.Workspace
import GraphMigrate.Data.Basic
import GraphMigrate.Data.Json
import GraphMigrate.Data.Yaml.Reader
import GraphMigrate.Data.Yaml.Scalar
import GraphMigrate.Definitions.Locate
import GraphMigrate.Definitions.Model
import GraphMigrate.Definitions.Vocabulary
import GraphMigrate.Diagnostic
import GraphMigrate.Disk
import GraphMigrate.Document.Printer
import GraphMigrate.Document.Reader
import GraphMigrate.Document.Schema
import GraphMigrate.Document.Syntax
import GraphMigrate.Document.Token
import GraphMigrate.Document.Walk
import GraphMigrate.Language
import GraphMigrate.Main
import GraphMigrate.Migration.Basic
import GraphMigrate.Migration.ClientNames
import GraphMigrate.Migration.DefinitionNames
import GraphMigrate.Migration.Deprecation
import GraphMigrate.Migration.DocumentNames
import GraphMigrate.Migration.IdPolicy
import GraphMigrate.Migration.Identity
import GraphMigrate.Migration.Pagination
import GraphMigrate.Migration.RawResponse
import GraphMigrate.Migration.Registry
import GraphMigrate.Naming
import GraphMigrate.Path
import GraphMigrate.Proofs.Arguments.DistinctKeys
import GraphMigrate.Proofs.Arguments.ObjectPattern
import GraphMigrate.Proofs.Arguments.PlannedAgain
import GraphMigrate.Proofs.Arguments.RebuiltArguments
import GraphMigrate.Proofs.Arguments.RenamePlan
import GraphMigrate.Proofs.Arguments.RenamedPattern
import GraphMigrate.Proofs.Arguments.RuntimeObject
import GraphMigrate.Proofs.Arguments.SettledKeys
import GraphMigrate.Proofs.CamelCase
import GraphMigrate.Proofs.CamelCaseNames
import GraphMigrate.Proofs.CamelCaseWords
import GraphMigrate.Proofs.CommandLine.Collected
import GraphMigrate.Proofs.CommandLine.DryRun
import GraphMigrate.Proofs.CommandLine.Isolation
import GraphMigrate.Proofs.CommandLine.NearestSettings
import GraphMigrate.Proofs.CommandLine.QuietRuns
import GraphMigrate.Proofs.CommandLine.Runs
import GraphMigrate.Proofs.CommandLine.WalkedDirectories
import GraphMigrate.Proofs.Control.Ensures
import GraphMigrate.Proofs.Data.WrittenJson
import GraphMigrate.Proofs.Definitions.Alike
import GraphMigrate.Proofs.Definitions.CrossReferences
import GraphMigrate.Proofs.Definitions.Fields
import GraphMigrate.Proofs.Definitions.Literals
import GraphMigrate.Proofs.Definitions.Mirrors
import GraphMigrate.Proofs.Definitions.OutputConfigs
import GraphMigrate.Proofs.Definitions.Places
import GraphMigrate.Proofs.Definitions.ReadLiterals
import GraphMigrate.Proofs.Definitions.Reports
import GraphMigrate.Proofs.Definitions.Respelling
import GraphMigrate.Proofs.Definitions.Separation
import GraphMigrate.Proofs.Definitions.Sites
import GraphMigrate.Proofs.Definitions.Spellings
import GraphMigrate.Proofs.Definitions.TwoReadings
import GraphMigrate.Proofs.Definitions.TwoSearches
import GraphMigrate.Proofs.Disk.Listing
import GraphMigrate.Proofs.Disk.Parents
import GraphMigrate.Proofs.Disk.Walking
import GraphMigrate.Proofs.Disk.Writing
import GraphMigrate.Proofs.Document.AppliedArguments
import GraphMigrate.Proofs.Document.CamelCase
import GraphMigrate.Proofs.Document.CamelCaseAgain
import GraphMigrate.Proofs.Document.ChangedNames
import GraphMigrate.Proofs.Document.DistinctArguments
import GraphMigrate.Proofs.Document.Identity
import GraphMigrate.Proofs.Document.KeptIds
import GraphMigrate.Proofs.Document.Names
import GraphMigrate.Proofs.Document.PolicyNames
import GraphMigrate.Proofs.Document.RefusedNames
import GraphMigrate.Proofs.Migration.CamelCaseTemplates
import GraphMigrate.Proofs.Migration.ConnectionNames
import GraphMigrate.Proofs.Migration.Deprecation
import GraphMigrate.Proofs.Migration.DistinctParameters
import GraphMigrate.Proofs.Migration.EarlyReturn
import GraphMigrate.Proofs.Migration.FileHead
import GraphMigrate.Proofs.Migration.HostCode
import GraphMigrate.Proofs.Migration.IdentityTemplates
import GraphMigrate.Proofs.Migration.MutationAdvisory
import GraphMigrate.Proofs.Migration.Pagination
import GraphMigrate.Proofs.Migration.PrunedText
import GraphMigrate.Proofs.Migration.RenamedAgain
import GraphMigrate.Proofs.Migration.RenamedSyntax
import GraphMigrate.Proofs.Migration.RequestedTypes
import GraphMigrate.Proofs.Migration.ResolverRewriting
import GraphMigrate.Proofs.Migration.SourceResolvers
import GraphMigrate.Proofs.Migration.SpreadKeys
import GraphMigrate.Proofs.Migration.TypeImports
import GraphMigrate.Proofs.Migration.UnrelatedFiles
import GraphMigrate.Proofs.Rewriting.AppendedProperty
import GraphMigrate.Proofs.Rewriting.ObjectLiteral
import GraphMigrate.Proofs.Rewriting.RemovalSpan
import GraphMigrate.Proofs.Rewriting.RemovedEntries
import GraphMigrate.Proofs.Script.FirmBeginnings
import GraphMigrate.Proofs.Script.Layout
import GraphMigrate.Proofs.Script.Places
import GraphMigrate.Proofs.Script.Prologue
import GraphMigrate.Proofs.Script.Reading
import GraphMigrate.Proofs.Script.Reading.Directives
import GraphMigrate.Proofs.Script.Reading.Expressions
import GraphMigrate.Proofs.Script.Reading.Functions
import GraphMigrate.Proofs.Script.Reading.Statements
import GraphMigrate.Proofs.Script.Reading.Types
import GraphMigrate.Proofs.Script.Scanning
import GraphMigrate.Proofs.Script.Standing
import GraphMigrate.Proofs.Script.Trivia
import GraphMigrate.Proofs.Script.VariableName
import GraphMigrate.Proofs.Script.Written
import GraphMigrate.Proofs.Script.WrittenDeclaration
import GraphMigrate.Proofs.Script.WrittenExpression
import GraphMigrate.Proofs.Script.WrittenImport
import GraphMigrate.Proofs.Script.WrittenPattern
import GraphMigrate.Proofs.Settings.LoadedPolicies
import GraphMigrate.Proofs.Settings.RoundTrip
import GraphMigrate.Proofs.Settings.Validity
import GraphMigrate.Proofs.Text.Apart
import GraphMigrate.Proofs.Text.ByteOrder
import GraphMigrate.Proofs.Text.Cut
import GraphMigrate.Proofs.Text.Emission
import GraphMigrate.Proofs.Text.Independence
import GraphMigrate.Proofs.Text.LinePositions
import GraphMigrate.Proofs.Text.Nesting
import GraphMigrate.Proofs.Text.Recorded
import GraphMigrate.Proofs.Text.Selection
import GraphMigrate.Proofs.Text.Splicing
import GraphMigrate.Proofs.Text.Verdicts
import GraphMigrate.Rewriting.Draft
import GraphMigrate.Rewriting.Entry
import GraphMigrate.Rewriting.Key
import GraphMigrate.Script.Grammar
import GraphMigrate.Script.Grammar.Basic
import GraphMigrate.Script.Grammar.Chains
import GraphMigrate.Script.Grammar.Expressions
import GraphMigrate.Script.Grammar.Functions
import GraphMigrate.Script.Grammar.Literals
import GraphMigrate.Script.Grammar.Markup
import GraphMigrate.Script.Grammar.Statements
import GraphMigrate.Script.Grammar.Types
import GraphMigrate.Script.Node
import GraphMigrate.Script.Source
import GraphMigrate.Script.Template
import GraphMigrate.Script.Token
import GraphMigrate.Settings.Basic
import GraphMigrate.Settings.Decode
import GraphMigrate.Settings.Glob
import GraphMigrate.Settings.Load
import GraphMigrate.Text.Blank
import GraphMigrate.Text.Edit
import GraphMigrate.Text.Letters
import GraphMigrate.Text.Line
import GraphMigrate.Text.Position
import GraphMigrate.Text.Span
import GraphMigrate.Text.Upper
