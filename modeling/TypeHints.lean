import TypeHints.ClassName
import TypeHints.CommandLine
import TypeHints.Decimal.Binary64
import TypeHints.Decimal.Shortest
import TypeHints.DocBlock
import TypeHints.Files.Basic
import TypeHints.Files.Glob
import TypeHints.Files.Snapshot
import TypeHints.Hint.Read
import TypeHints.Hint.Scan
import TypeHints.Hint.Token
import TypeHints.Hint.Tree
import TypeHints.Json.Decode
import TypeHints.Json.Document
import TypeHints.Json.Number
import TypeHints.Json.Print
import TypeHints.Json.Read
import TypeHints.Keyed
import TypeHints.Main
import TypeHints.Native.Decl
import TypeHints.Native.Decode
import TypeHints.Native.Encode
import TypeHints.Native.Table
import TypeHints.Proofs.ClassName
import TypeHints.Proofs.DocBlock.Lines
import TypeHints.Proofs.DocBlock.Parameters
import TypeHints.Proofs.DocBlock.Tags
import TypeHints.Proofs.Hint.Completeness
import TypeHints.Proofs.Hint.Delimitation
import TypeHints.Proofs.Hint.Fitting
import TypeHints.Proofs.Hint.Grammar
import TypeHints.Proofs.Hint.Height
import TypeHints.Proofs.Hint.Nesting
import TypeHints.Proofs.Hint.Respelling
import TypeHints.Proofs.Hint.Scanning
import TypeHints.Proofs.Hint.Soundness
import TypeHints.Proofs.Hint.Spelling
import TypeHints.Proofs.Hint.Tokens
import TypeHints.Proofs.Hint.Writing
import TypeHints.Proofs.Keyed
import TypeHints.Proofs.Native.HintText
import TypeHints.Proofs.Resolve.Canonical
import TypeHints.Proofs.Resolve.NativeHint
import TypeHints.Proofs.Resolve.Qualified
import TypeHints.Proofs.Resolve.ScopeWord
import TypeHints.Proofs.Resolve.Steady
import TypeHints.Proofs.Resolve.Undocumented
import TypeHints.Proofs.Resolve.WellFormed
import TypeHints.Proofs.Scope.Denotation
import TypeHints.Proofs.Scope.Templates
import TypeHints.Proofs.Ty.Nullable
import TypeHints.Proofs.Ty.Spelling
import TypeHints.Proofs.Ty.WellFormed
import TypeHints.Proofs.World.Aliases
import TypeHints.Proofs.World.Ancestry
import TypeHints.Proofs.World.Names
import TypeHints.Proofs.World.Query
import TypeHints.Proofs.World.Reachability
import TypeHints.Resolve.Failure
import TypeHints.Resolve.Hint
import TypeHints.Resolve.Native
import TypeHints.Resolve.Pipeline
import TypeHints.Resolve.Subject
import TypeHints.Scenario.Basic
import TypeHints.Scenario.Decode
import TypeHints.Scenario.Report
import TypeHints.Scenario.Run
import TypeHints.Scope.Basic
import TypeHints.Scope.Declared
import TypeHints.Session
import TypeHints.Text.Bytes
import TypeHints.Text.Letter
import TypeHints.Text.Table
import TypeHints.Ty.Basic
import TypeHints.Ty.Build
import TypeHints.Ty.Encode
import TypeHints.Ty.Kind
import TypeHints.Ty.Render
import TypeHints.World.Aliases
import TypeHints.World.Ancestry
import TypeHints.World.Basic
import TypeHints.World.Query
import TypeHints.Proofs.Session.History
import TypeHints.Proofs.Session.Staleness
import TypeHints.Proofs.Json.Grammar
import TypeHints.Proofs.Json.Reading
import TypeHints.Proofs.Json.Writing
import TypeHints.Proofs.Json.Nesting
import TypeHints.Proofs.Json.Records
import TypeHints.Proofs.Native.RoundTrip
import TypeHints.Proofs.Json.Paths
import TypeHints.Proofs.Json.Errors
import TypeHints.Proofs.Json.Order
import TypeHints.Proofs.Native.Errors
import TypeHints.Proofs.Native.Variation
import TypeHints.Proofs.Ty.Grouping
import TypeHints.Proofs.Ty.Observation
import TypeHints.Proofs.Scope.Parent
import TypeHints.Proofs.Hint.Budget
import TypeHints.Proofs.Hint.Arguments
import TypeHints.Proofs.Resolve.Arguments
import TypeHints.Proofs.Depth
import TypeHints.Proofs.Hint.Shape
import TypeHints.Proofs.Ty.Parts
import TypeHints.Proofs.Ty.ListKeys
import TypeHints.Proofs.Resolve.Answers
import TypeHints.Proofs.Resolve.Depth
import TypeHints.Proofs.Resolve.ListKeys
import TypeHints.Proofs.Resolve.Promotion
import TypeHints.Proofs.Text.Places
import TypeHints.Proofs.Hint.Tiling
import TypeHints.Proofs.Hint.Offsets
import TypeHints.Proofs.Text.Cursor
import TypeHints.Proofs.Hint.Lexer
import TypeHints.Proofs.Hint.Placement
import TypeHints.Proofs.Hint.Spacing
import TypeHints.Proofs.Hint.Integers
import TypeHints.Proofs.Scenario.Independence
import TypeHints.Proofs.Scope.Templating
import TypeHints.Proofs.Hint.Quoting
import TypeHints.Proofs.World.Wrapping
