import ModuleLoader.Command.Arguments
import ModuleLoader.Command.Help
import ModuleLoader.Command.Outcome
import ModuleLoader.Completion.Order
import ModuleLoader.Completion.Record
import ModuleLoader.Completion.Store
import ModuleLoader.Configuration.Basic
import ModuleLoader.Configuration.Json
import ModuleLoader.Configuration.Layers
import ModuleLoader.Configuration.Setting
import ModuleLoader.Diagnostic
import ModuleLoader.Environment.Basic
import ModuleLoader.Environment.Operations
import ModuleLoader.Failure
import ModuleLoader.Files.Path
import ModuleLoader.Files.System
import ModuleLoader.Files.Tree
import ModuleLoader.Host
import ModuleLoader.Json.Token
import ModuleLoader.Json.Value
import ModuleLoader.Location
import ModuleLoader.Main
import ModuleLoader.Manifest.Basic
import ModuleLoader.Manifest.Index
import ModuleLoader.Namespace.Declaration
import ModuleLoader.Namespace.Scope
import ModuleLoader.Namespace.Unit
import ModuleLoader.Number.Binary64
import ModuleLoader.Number.Shortest
import ModuleLoader.Number.Whole
import ModuleLoader.Retrieval.Medium
import ModuleLoader.Retrieval.Schedule
import ModuleLoader.Script.Engine
import ModuleLoader.Script.Fault
import ModuleLoader.Script.Graph
import ModuleLoader.Script.Parse
import ModuleLoader.Script.Program
import ModuleLoader.Script.Scan
import ModuleLoader.Script.Token
import ModuleLoader.Script.Value
import ModuleLoader.Table
import ModuleLoader.Text.Blank
import ModuleLoader.Text.Case
import ModuleLoader.Text.CaseTable
import ModuleLoader.Text.Identifier
import ModuleLoader.Text.IdentifierTable
import ModuleLoader.Text.Segments
import ModuleLoader.Toml.Document
import ModuleLoader.Toml.Reader
import ModuleLoader.Toml.Scalar
import ModuleLoader.Toml.Value
import ModuleLoader.Url.Address
import ModuleLoader.Url.Basic
import ModuleLoader.Url.Host
import ModuleLoader.Url.Parse
import ModuleLoader.Url.Percent
import ModuleLoader.Url.Punycode
import ModuleLoader.Proofs.Completion.Flush
import ModuleLoader.Proofs.Completion.History
import ModuleLoader.Proofs.Completion.Walk
import ModuleLoader.Proofs.Completion.Confluence
import ModuleLoader.Proofs.Retrieval.Outstanding
import ModuleLoader.Proofs.Retrieval.Moves
import ModuleLoader.Proofs.Environment.Flush
import ModuleLoader.Proofs.Environment.Session
import ModuleLoader.Proofs.Environment.Transit
import ModuleLoader.Proofs.Environment.Fresh
import ModuleLoader.Proofs.Environment.Plain
import ModuleLoader.Proofs.Environment.Refinement
import ModuleLoader.Proofs.Environment.Fixpoint
import ModuleLoader.Proofs.Environment.Consistency
import ModuleLoader.Proofs.Environment.Report
import ModuleLoader.Proofs.Environment.Composition
import ModuleLoader.Proofs.Environment.Diagnosis
import ModuleLoader.Proofs.Environment.Waiting
import ModuleLoader.Proofs.Environment.Starts
import ModuleLoader.Proofs.Environment.LateStarts
import ModuleLoader.Proofs.Environment.Refusal
import ModuleLoader.Proofs.Environment.Incidents
import ModuleLoader.Proofs.Environment.Boot
import ModuleLoader.Proofs.Environment.Requests
import ModuleLoader.Proofs.Environment.Phase
import ModuleLoader.Proofs.Environment.Settling
import ModuleLoader.Proofs.Script.Reading
import ModuleLoader.Proofs.Script.Scanning
import ModuleLoader.Proofs.Script.Naming
import ModuleLoader.Proofs.Namespace.Preamble
import ModuleLoader.Proofs.Script.Trailing
import ModuleLoader.Proofs.Script.Running
import ModuleLoader.Proofs.Namespace.Position
import ModuleLoader.Proofs.Script.Performing
import ModuleLoader.Proofs.Script.Writes
import ModuleLoader.Proofs.Script.Failing
import ModuleLoader.Proofs.Namespace.Discovery
import ModuleLoader.Proofs.Script.Remainder
import ModuleLoader.Proofs.Script.Spelling
import ModuleLoader.Proofs.Script.Grammar
import ModuleLoader.Proofs.Script.Writing
import ModuleLoader.Proofs.Script.Stopping
import ModuleLoader.Proofs.Script.Offending
import ModuleLoader.Proofs.Script.Locals
import ModuleLoader.Proofs.Namespace.Declaration
import ModuleLoader.Proofs.Namespace.DeclaredRoots
import ModuleLoader.Proofs.Namespace.RootTable
import ModuleLoader.Proofs.Script.Unterminated
import ModuleLoader.Proofs.Script.Inert
import ModuleLoader.Proofs.Namespace.Trailer
import ModuleLoader.Proofs.Namespace.Blank
import ModuleLoader.Proofs.Environment.InOrder
import ModuleLoader.Proofs.Manifest.Ids
import ModuleLoader.Proofs.Command.Run
import ModuleLoader.Proofs.Command.Roots
import ModuleLoader.Proofs.Completion.Stretch
import ModuleLoader.Proofs.Script.Coverage
import ModuleLoader.Proofs.Script.References
import ModuleLoader.Proofs.Script.DeclaredTree
import ModuleLoader.Proofs.Script.Globals
import ModuleLoader.Proofs.Namespace.Privacy
import ModuleLoader.Proofs.Number.Whole
import ModuleLoader.Proofs.Script.LastValue
import ModuleLoader.Proofs.Script.Numeral
import ModuleLoader.Proofs.Configuration.Aliases
import ModuleLoader.Proofs.Manifest.Files
