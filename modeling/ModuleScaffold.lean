import ModuleScaffold.Cli
import ModuleScaffold.Cli.Args
import ModuleScaffold.Cli.Screen
import ModuleScaffold.Command.Script
import ModuleScaffold.Command.Shell
import ModuleScaffold.Command.Tool
import ModuleScaffold.Declarations
import ModuleScaffold.Failure
import ModuleScaffold.Files
import ModuleScaffold.Files.Disk
import ModuleScaffold.Files.Walk
import ModuleScaffold.Formatter
import ModuleScaffold.Generator
import ModuleScaffold.Json.Record
import ModuleScaffold.Json.Token
import ModuleScaffold.Layout
import ModuleScaffold.Main
import ModuleScaffold.Number.Double
import ModuleScaffold.Number.Literal
import ModuleScaffold.Number.Nearest
import ModuleScaffold.Number.Product
import ModuleScaffold.Number.Shortest
import ModuleScaffold.OsError
import ModuleScaffold.Path
import ModuleScaffold.Proofs.Generation.Again
import ModuleScaffold.Proofs.Generation.Memory
import ModuleScaffold.Proofs.Generation.Writing
import ModuleScaffold.Proofs.Merge.Again
import ModuleScaffold.Proofs.Merge.Ascending
import ModuleScaffold.Proofs.Merge.Keyed
import ModuleScaffold.Proofs.Merge.Monoid
import ModuleScaffold.Proofs.Merge.Read
import ModuleScaffold.Proofs.Merge.Rewritten
import ModuleScaffold.Proofs.Merge.Run
import ModuleScaffold.Proofs.Order.Declarations
import ModuleScaffold.Proofs.Order.Repeat
import ModuleScaffold.Proofs.Order.Stable
import ModuleScaffold.Proofs.Order.Walk
import ModuleScaffold.Proofs.Reading.Expression
import ModuleScaffold.Proofs.Reading.Layout
import ModuleScaffold.Proofs.Reading.Lexeme
import ModuleScaffold.Proofs.Reading.Literal
import ModuleScaffold.Proofs.Reading.Route
import ModuleScaffold.Proofs.Reading.Value
import ModuleScaffold.Proofs.References.Binding
import ModuleScaffold.Proofs.References.Dangling
import ModuleScaffold.Proofs.References.Declared
import ModuleScaffold.Proofs.Text.Spacing
import ModuleScaffold.Route
import ModuleScaffold.Schema
import ModuleScaffold.Schema.Check
import ModuleScaffold.Schema.Load
import ModuleScaffold.Schema.Naming
import ModuleScaffold.Source.Accept
import ModuleScaffold.Source.Damage
import ModuleScaffold.Source.Expression
import ModuleScaffold.Source.Fragment
import ModuleScaffold.Source.Lexeme
import ModuleScaffold.Source.Middlewares
import ModuleScaffold.Source.Program
import ModuleScaffold.Source.Reader
import ModuleScaffold.Source.Statement
import ModuleScaffold.Source.Tree
import ModuleScaffold.Source.Types
import ModuleScaffold.Source.Values
import ModuleScaffold.Source.Warning
import ModuleScaffold.Store
import ModuleScaffold.Store.Change
import ModuleScaffold.Store.Define
import ModuleScaffold.Store.Import
import ModuleScaffold.Store.Order
import ModuleScaffold.Store.PostOrder
import ModuleScaffold.Store.Render
import ModuleScaffold.Template
import ModuleScaffold.Template.AdminFiles
import ModuleScaffold.Template.Helpers
import ModuleScaffold.Template.ModuleFiles
import ModuleScaffold.Template.Render
import ModuleScaffold.Template.RouteFiles
import ModuleScaffold.Text.Alphabetic
import ModuleScaffold.Text.Blank
import ModuleScaffold.Text.Cluster
import ModuleScaffold.Text.Digits
import ModuleScaffold.Text.Identifier
import ModuleScaffold.Text.LetterCase
import ModuleScaffold.Text.NameSet
import ModuleScaffold.Text.Octets
import ModuleScaffold.Text.Quoted
import ModuleScaffold.Text.Ranges
import ModuleScaffold.Text.Shown
import ModuleScaffold.Text.Words
import ModuleScaffold.Value
import ModuleScaffold.Value.Layout
import ModuleScaffold.Value.Problem
import ModuleScaffold.Value.Regex
import ModuleScaffold.Proofs.Generation.DryRun
import ModuleScaffold.Proofs.Generation.Ownership
import ModuleScaffold.Proofs.Generation.Checking
import ModuleScaffold.Proofs.Reading.Statements
import ModuleScaffold.Proofs.Modules.Accepted
import ModuleScaffold.Proofs.Modules.Names
import ModuleScaffold.Proofs.Modules.Nested
import ModuleScaffold.Proofs.References.Binders
import ModuleScaffold.Proofs.Modules.Declared
import ModuleScaffold.Proofs.Modules.Rendering
import ModuleScaffold.Proofs.Modules.Written
import ModuleScaffold.Proofs.Modules.Routes
import ModuleScaffold.Proofs.Paths.Joining
import ModuleScaffold.Proofs.Text.Marks
import ModuleScaffold.Proofs.Modules.Places
import ModuleScaffold.Proofs.Modules.Apart
import ModuleScaffold.Proofs.Modules.Shared
import ModuleScaffold.Proofs.Merge.Registration
import ModuleScaffold.Proofs.Modules.Inside
import ModuleScaffold.Proofs.Paths.Leading
import ModuleScaffold.Proofs.Modules.Imports
import ModuleScaffold.Proofs.Modules.Targets
import ModuleScaffold.Proofs.Modules.Resolved
import ModuleScaffold.Proofs.Denotation.Entries
import ModuleScaffold.Proofs.Reading.Argument
import ModuleScaffold.Proofs.Reading.Import
import ModuleScaffold.Proofs.Reading.Variables
import ModuleScaffold.Proofs.Denotation.Kept
import ModuleScaffold.Proofs.Denotation.Imported
import ModuleScaffold.Proofs.Denotation.Constants
import ModuleScaffold.Proofs.Order.Comments
import ModuleScaffold.Proofs.Order.Routes
import ModuleScaffold.Proofs.Merge.Entries
import ModuleScaffold.Proofs.Depth.Alike
import ModuleScaffold.Proofs.Depth.Types
import ModuleScaffold.Proofs.Depth.Expressions
import ModuleScaffold.Proofs.Depth.Statements
import ModuleScaffold.Proofs.Denotation.Initializers
import ModuleScaffold.Proofs.Denotation.Escapes
import ModuleScaffold.Proofs.Paths.Pointed
import ModuleScaffold.Proofs.Denotation.Patterns
import ModuleScaffold.Proofs.Modules.Matching
import ModuleScaffold.Proofs.Reading.Tokens
import ModuleScaffold.Proofs.Reading.Breaking
import ModuleScaffold.Proofs.Denotation.Quoting
import ModuleScaffold.Proofs.Denotation.Delimiters
import ModuleScaffold.Proofs.Modules.Loading
import ModuleScaffold.Proofs.Scan.Steps
import ModuleScaffold.Proofs.Scan.Tokens
import ModuleScaffold.Proofs.Scan.Types
import ModuleScaffold.Proofs.Scan.Expressions
import ModuleScaffold.Proofs.Scan.Statements
import ModuleScaffold.Proofs.Scan.Patterns
import ModuleScaffold.Proofs.Scan.Names
import ModuleScaffold.Proofs.Scan.Spans
import ModuleScaffold.Proofs.Order.Bindings
import ModuleScaffold.Proofs.Order.Mentions
import ModuleScaffold.Proofs.Reading.Passage
import ModuleScaffold.Proofs.Reading.Registration
import ModuleScaffold.Proofs.Reading.File
import ModuleScaffold.Proofs.Modules.Regular
import ModuleScaffold.Proofs.Generation.Converging
