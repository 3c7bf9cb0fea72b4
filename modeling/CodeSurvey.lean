import CodeSurvey.Analyzer
import CodeSurvey.Calendar
import CodeSurvey.Checkout
import CodeSurvey.Checkout.History
import CodeSurvey.Checkout.IgnoreRule
import CodeSurvey.Checkout.Remote
import CodeSurvey.Checkout.Tree
import CodeSurvey.Classification
import CodeSurvey.CommandLine
import CodeSurvey.CommandLine.Arguments
import CodeSurvey.CommandLine.Usage
import CodeSurvey.Complexity
import CodeSurvey.Contributor
import CodeSurvey.Coupling
import CodeSurvey.Coupling.Commits
import CodeSurvey.Coupling.Compute
import CodeSurvey.Coupling.Structure
import CodeSurvey.Deadline
import CodeSurvey.DependencyGraph
import CodeSurvey.DependencyGraph.Build
import CodeSurvey.DependencyGraph.Resolve
import CodeSurvey.Failure
import CodeSurvey.Finding
import CodeSurvey.Finding.Debt
import CodeSurvey.Finding.Endpoints
import CodeSurvey.Finding.Hotspots
import CodeSurvey.Finding.KeyFunctions
import CodeSurvey.Finding.LinePattern
import CodeSurvey.Finding.Security
import CodeSurvey.Glob
import CodeSurvey.Import
import CodeSurvey.Import.FromText
import CodeSurvey.Import.FromTree
import CodeSurvey.Import.Scan
import CodeSurvey.Journal
import CodeSurvey.Json
import CodeSurvey.Json.Reader
import CodeSurvey.Json.Writer
import CodeSurvey.Keyed
import CodeSurvey.Log
import CodeSurvey.Main
import CodeSurvey.Manifest
import CodeSurvey.Manifest.Declared
import CodeSurvey.Metrics
import CodeSurvey.Moment
import CodeSurvey.Moment.Reader
import CodeSurvey.Number
import CodeSurvey.Number.Binary64
import CodeSurvey.Number.Decimal
import CodeSurvey.Number.Logarithm
import CodeSurvey.Number.Numeral
import CodeSurvey.Parsing
import CodeSurvey.Path
import CodeSurvey.Pattern
import CodeSurvey.Progress
import CodeSurvey.Proofs.Calendar
import CodeSurvey.Proofs.Checkout.Anchored
import CodeSurvey.Proofs.Checkout.Exclusion
import CodeSurvey.Proofs.Checkout.History
import CodeSurvey.Proofs.Checkout.Remote
import CodeSurvey.Proofs.Checkout.Walk
import CodeSurvey.Proofs.Checkout.WalkOrder
import CodeSurvey.Proofs.Classification
import CodeSurvey.Proofs.Complexity
import CodeSurvey.Proofs.Contributor.BusFactor
import CodeSurvey.Proofs.Coupling.CoChange
import CodeSurvey.Proofs.Coupling.Evidence
import CodeSurvey.Proofs.Coupling.Groups
import CodeSurvey.Proofs.Coupling.Idempotence
import CodeSurvey.Proofs.Coupling.Merge
import CodeSurvey.Proofs.Coupling.Permutation
import CodeSurvey.Proofs.Coupling.Places
import CodeSurvey.Proofs.Coupling.Selection
import CodeSurvey.Proofs.Coupling.Shape
import CodeSurvey.Proofs.Coupling.Stem
import CodeSurvey.Proofs.Coupling.Tally
import CodeSurvey.Proofs.Coupling.Window
import CodeSurvey.Proofs.Coupling.WindowOrder
import CodeSurvey.Proofs.Coupling.WindowStart
import CodeSurvey.Proofs.DependencyGraph.Accounting
import CodeSurvey.Proofs.DependencyGraph.Climbing
import CodeSurvey.Proofs.DependencyGraph.Deadline
import CodeSurvey.Proofs.DependencyGraph.Edges
import CodeSurvey.Proofs.DependencyGraph.Filing
import CodeSurvey.Proofs.DependencyGraph.Inferred
import CodeSurvey.Proofs.DependencyGraph.Interruption
import CodeSurvey.Proofs.DependencyGraph.Invariants
import CodeSurvey.Proofs.DependencyGraph.Ladder
import CodeSurvey.Proofs.DependencyGraph.Links
import CodeSurvey.Proofs.Finding.Duplication
import CodeSurvey.Proofs.Finding.Hotspots
import CodeSurvey.Proofs.Finding.KeyFunctions
import CodeSurvey.Proofs.Glob
import CodeSurvey.Proofs.Import.Ecmascript
import CodeSurvey.Proofs.Import.Listed
import CodeSurvey.Proofs.Import.Scan
import CodeSurvey.Proofs.Interleaving
import CodeSurvey.Proofs.Journal
import CodeSurvey.Proofs.Json.Overlong
import CodeSurvey.Proofs.Keyed
import CodeSurvey.Proofs.Manifest.Arranged
import CodeSurvey.Proofs.Manifest.Reading
import CodeSurvey.Proofs.Manifest.Rejection
import CodeSurvey.Proofs.Manifest.Reordered
import CodeSurvey.Proofs.Manifest.Requirement
import CodeSurvey.Proofs.Moment
import CodeSurvey.Proofs.Moment.Range
import CodeSurvey.Proofs.Moment.Universal
import CodeSurvey.Proofs.Number.Arithmetic
import CodeSurvey.Proofs.Number.Extended
import CodeSurvey.Proofs.Number.Range
import CodeSurvey.Proofs.Number.Sum
import CodeSurvey.Proofs.Outcome
import CodeSurvey.Proofs.Parsing
import CodeSurvey.Proofs.Path.Normal
import CodeSurvey.Proofs.Path.Tidy
import CodeSurvey.Proofs.Pattern
import CodeSurvey.Proofs.Pool
import CodeSurvey.Proofs.Progress.Aggregate
import CodeSurvey.Proofs.Progress.Completion
import CodeSurvey.Proofs.Progress.Run
import CodeSurvey.Proofs.Progress.Soundness
import CodeSurvey.Proofs.Quality
import CodeSurvey.Proofs.Quality.Batches
import CodeSurvey.Proofs.Settings
import CodeSurvey.Proofs.Settings.Refusal
import CodeSurvey.Proofs.Sorting
import CodeSurvey.Proofs.Survey.Announcements
import CodeSurvey.Proofs.Survey.Boundary
import CodeSurvey.Proofs.Survey.Concurrency
import CodeSurvey.Proofs.Survey.Degradation
import CodeSurvey.Proofs.Survey.Isolation
import CodeSurvey.Proofs.Survey.Noninterference
import CodeSurvey.Proofs.Survey.Plan
import CodeSurvey.Proofs.Survey.Preparation
import CodeSurvey.Proofs.Survey.Progress
import CodeSurvey.Proofs.Survey.Schedule
import CodeSurvey.Proofs.SyntaxTree
import CodeSurvey.Proofs.SyntaxTree.NodeText
import CodeSurvey.Proofs.SyntaxTree.Preorder
import CodeSurvey.Proofs.Validation
import CodeSurvey.Proofs.Validation.Verdict
import CodeSurvey.Quality
import CodeSurvey.Report
import CodeSurvey.Repository
import CodeSurvey.Role
import CodeSurvey.Settings
import CodeSurvey.Settings.Reader
import CodeSurvey.Slice
import CodeSurvey.Survey
import CodeSurvey.Survey.Preparation
import CodeSurvey.Survey.Prompt
import CodeSurvey.Survey.Run
import CodeSurvey.Survey.Stages
import CodeSurvey.SyntaxTree
import CodeSurvey.Text.Case
import CodeSurvey.Text.CaseRuns
import CodeSurvey.Text.Character
import CodeSurvey.Text.CharacterRuns
import CodeSurvey.Text.Lines
import CodeSurvey.Text.Quoted
import CodeSurvey.Text.Sorted
import CodeSurvey.Text.Utf8
import CodeSurvey.Toml
import CodeSurvey.Toml.Reader
import CodeSurvey.Toml.Scalar
import CodeSurvey.Total
import CodeSurvey.Validation
import CodeSurvey.Xml
import CodeSurvey.Xml.Doctype
import CodeSurvey.Xml.NameRuns
import CodeSurvey.Xml.Reader
import CodeSurvey.Xml.Token
import CodeSurvey.Yaml
import CodeSurvey.Yaml.Reader
import CodeSurvey.Yaml.Fault
import CodeSurvey.Yaml.Lexer
import CodeSurvey.Yaml.Marks
import CodeSurvey.Yaml.Node
import CodeSurvey.Yaml.Place
import CodeSurvey.Yaml.Scalar
import CodeSurvey.Yaml.ScalarText
import CodeSurvey.Yaml.Tag
