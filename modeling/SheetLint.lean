import SheetLint.Binary
import SheetLint.Cache
import SheetLint.CommandLine
import SheetLint.CommandLine.Options
import SheetLint.CommandLine.Switch
import SheetLint.CommandLine.Usage
import SheetLint.Decimal
import SheetLint.Digest
import SheetLint.DisabledRange
import SheetLint.Disk
import SheetLint.Disk.Node
import SheetLint.Disk.Walk
import SheetLint.Engine
import SheetLint.Engine.Scripted
import SheetLint.Engine.Structural
import SheetLint.Format
import SheetLint.Format.Sarif
import SheetLint.Format.Summary
import SheetLint.Format.Table
import SheetLint.Glob
import SheetLint.Glob.Expr
import SheetLint.Glob.Token
import SheetLint.Ignore
import SheetLint.InputPattern
import SheetLint.Inputs
import SheetLint.Json.Cursor
import SheetLint.Json.Fault
import SheetLint.Json.Loose
import SheetLint.Json.Loose.Token
import SheetLint.Json.Number
import SheetLint.Json.Printer
import SheetLint.Json.Reader
import SheetLint.Json.Schema
import SheetLint.Json.Schema.Check
import SheetLint.Json.Schema.Read
import SheetLint.Json.Shaped
import SheetLint.Json.Text
import SheetLint.Json.Value
import SheetLint.Keyed
import SheetLint.Lint
import SheetLint.Main
import SheetLint.NeedlessRange
import SheetLint.Options
import SheetLint.Options.Json
import SheetLint.Path
import SheetLint.Program
import SheetLint.Proofs.Cache.Fixing
import SheetLint.Proofs.Cache.Handles
import SheetLint.Proofs.Cache.History
import SheetLint.Proofs.Cache.Location
import SheetLint.Proofs.Cache.Repetition
import SheetLint.Proofs.CommandLine.ExitCode
import SheetLint.Proofs.CommandLine.Input
import SheetLint.Proofs.DisabledRange.Coverage
import SheetLint.Proofs.DisabledRange.EveryRule
import SheetLint.Proofs.DisabledRange.Needless
import SheetLint.Proofs.DisabledRange.Opening
import SheetLint.Proofs.DisabledRange.WellFormed
import SheetLint.Proofs.Disk.Footprint
import SheetLint.Proofs.Disk.Growth
import SheetLint.Proofs.Disk.Making
import SheetLint.Proofs.Disk.Onward
import SheetLint.Proofs.Disk.Parent
import SheetLint.Proofs.Disk.Placement
import SheetLint.Proofs.Disk.Steps
import SheetLint.Proofs.Disk.Writing
import SheetLint.Proofs.Engine.Key
import SheetLint.Proofs.Engine.Positions
import SheetLint.Proofs.Format.Errors
import SheetLint.Proofs.Format.Failure
import SheetLint.Proofs.Format.Sarif
import SheetLint.Proofs.Format.Summary
import SheetLint.Proofs.Format.Table
import SheetLint.Proofs.Glob.Components
import SheetLint.Proofs.Glob.Front
import SheetLint.Proofs.Glob.Steps
import SheetLint.Proofs.Ignore.Order
import SheetLint.Proofs.Inputs.BaseDirectory
import SheetLint.Proofs.Inputs.Dependencies
import SheetLint.Proofs.Inputs.DottedNames
import SheetLint.Proofs.Inputs.Literal
import SheetLint.Proofs.Inputs.Moved
import SheetLint.Proofs.Inputs.Relocation
import SheetLint.Proofs.Inputs.Resolution
import SheetLint.Proofs.Inputs.Roots
import SheetLint.Proofs.Json.Indented
import SheetLint.Proofs.Json.Loose.RoundTrip
import SheetLint.Proofs.Json.Loose.Sorted
import SheetLint.Proofs.Json.Loose.Tokens
import SheetLint.Proofs.Json.Schema
import SheetLint.Proofs.Json.Schema.Printed
import SheetLint.Proofs.Json.Schema.Regular
import SheetLint.Proofs.Lint.Alone
import SheetLint.Proofs.Lint.Asked
import SheetLint.Proofs.Lint.Flags
import SheetLint.Proofs.Lint.Footprint
import SheetLint.Proofs.Lint.Inline
import SheetLint.Proofs.Lint.Workers
import SheetLint.Proofs.Path.Around
import SheetLint.Proofs.Path.Inside
import SheetLint.Proofs.Path.Parent
import SheetLint.Proofs.SourceResult.Json
import SheetLint.Proofs.Stylesheet.Composition
import SheetLint.Proofs.Stylesheet.Dialects
import SheetLint.Proofs.Stylesheet.Directive
import SheetLint.Proofs.Stylesheet.Verdict
import SheetLint.Run
import SheetLint.RunCache
import SheetLint.RunError
import SheetLint.Snapshot
import SheetLint.SourceResult
import SheetLint.SourceResult.Binary
import SheetLint.SourceResult.Json
import SheetLint.SourceResult.Outcome
import SheetLint.Stylesheet.Dialect
import SheetLint.Stylesheet.Directive
import SheetLint.Stylesheet.Scan
import SheetLint.Text
import SheetLint.Text.Alphanumeric
import SheetLint.Text.Quoted
import SheetLint.Warning
