import RequestFile.Token
import RequestFile.KindSet
import RequestFile.Text.Printable
import RequestFile.Diagnostic.Filter
import RequestFile.Parse.Cursor
import RequestFile.Parse
import RequestFile.Outline
import RequestFile.Summary
import RequestFile.Diagnostic.Render
import RequestFile.Json.Shape
import RequestFile.NodeType.Text
import RequestFile.NodeType.Table
import RequestFile.Kind.Shape
import RequestFile.Grammar.Standard
import RequestFile.Language
import RequestFile.Cli.Arguments
import RequestFile.Main
import RequestFile.Proofs.Compositional
import RequestFile.Proofs.Limits.Basic
import RequestFile.Proofs.Limits.Preamble
import RequestFile.Proofs.Limits.Head
import RequestFile.Proofs.Limits.Body
import RequestFile.Proofs.Characters
import RequestFile.Proofs.Scan
import RequestFile.Proofs.Borders
import RequestFile.Proofs.Located
import RequestFile.Proofs.Lexemes
import RequestFile.Proofs.Hyphens
import RequestFile.Proofs.Lookahead
import RequestFile.Proofs.Form
import RequestFile.Proofs.Run
import RequestFile.Proofs.Step
import RequestFile.Proofs.Value
import RequestFile.Proofs.Script
import RequestFile.Proofs.Preamble
import RequestFile.Proofs.Head
import RequestFile.Proofs.Body
import RequestFile.Proofs.Section
import RequestFile.Proofs.Horizon
import RequestFile.Proofs.Twin.Basic
import RequestFile.Proofs.Twin.Value
import RequestFile.Proofs.Twin.Preamble
import RequestFile.Proofs.Twin.Head
import RequestFile.Proofs.Twin.Body
import RequestFile.Proofs.Twin.Section
import RequestFile.Proofs.Boundaries
import RequestFile.Proofs.Limits.Section
import RequestFile.Proofs.Nodes
import RequestFile.Proofs.Validity
import RequestFile.Proofs.LineStarts
import RequestFile.Proofs.Limits.Outcome
import RequestFile.Proofs.Limits.Faults
import RequestFile.Proofs.Limits.Depth
import RequestFile.Proofs.Canonical.Model
import RequestFile.Proofs.Canonical.Tokens
import RequestFile.Proofs.Canonical.Lines
import RequestFile.Proofs.Canonical.Exact
import RequestFile.Proofs.Canonical.Quiet
import RequestFile.Proofs.Canonical.Message
import RequestFile.Proofs.Canonical.Section
import RequestFile.Proofs.Canonical.Reading
import RequestFile.Proofs.Canonical.Roundtrip
import RequestFile.Proofs.Conformance
import RequestFile.Proofs.Terminator.Text
import RequestFile.Proofs.Terminator.Lookahead
import RequestFile.Proofs.Terminator.Step
import RequestFile.Proofs.Terminator.Head
import RequestFile.Proofs.Terminator.Section
import RequestFile.Proofs.Terminator.Parse
import RequestFile.Proofs.Terminator.Content
import RequestFile.Proofs.Terminator.Summary
import RequestFile.Proofs.Shadowing
import RequestFile.Proofs.Precedence
import RequestFile.Proofs.Invariant
import RequestFile.Proofs.Ranges
import RequestFile.Proofs.LastLine.Lookahead
import RequestFile.Proofs.LastLine.Step
import RequestFile.Proofs.LastLine.Head
import RequestFile.Proofs.LastLine.Body
import RequestFile.Proofs.LastLine.Section
import RequestFile.Proofs.LastLine.Summary
import RequestFile.Proofs.Check
import RequestFile.Proofs.Grammar
import RequestFile.Proofs.NodeTable
import RequestFile.Proofs.Language
import RequestFile.Proofs.Numbering
import RequestFile.Proofs.Json.Reads
import RequestFile.Proofs.Json.Layout
import RequestFile.Proofs.Json.Shapes
import RequestFile.Proofs.Json.NodeTypes
import RequestFile.Proofs.Leaves
import RequestFile.Proofs.Sites
import RequestFile.Proofs.Entered.Basic
import RequestFile.Proofs.Entered.Head
import RequestFile.Proofs.Entered.Body
import RequestFile.Proofs.Entered.Section
import RequestFile.Proofs.Agreement
import RequestFile.Proofs.Canonical.Boundary
import RequestFile.Proofs.Canonical.Single
import RequestFile.Proofs.Canonical.Multipart
import RequestFile.Proofs.Canonical.Marked
import RequestFile.Proofs.Canonical.Url
import RequestFile.Proofs.Canonical.FormFields
import RequestFile.Proofs.Canonical.Reference
import RequestFile.Proofs.Canonical.Query
import RequestFile.Proofs.Canonical.Interpolation
import RequestFile.Proofs.Canonical.Command
import RequestFile.Proofs.Canonical.Path
import RequestFile.Proofs.Traversal
import RequestFile.Proofs.Origin
import RequestFile.Proofs.TextLines
import RequestFile.Proofs.Trimming
import RequestFile.Proofs.Closing
import RequestFile.Proofs.TextBody
import RequestFile.Proofs.Version
import RequestFile.Proofs.UrlLines
import RequestFile.Proofs.Names
import RequestFile.Proofs.Yields
import RequestFile.Proofs.Canonical.LineValue
import RequestFile.Proofs.LineHeads
import RequestFile.Proofs.GraphqlBody
import RequestFile.Proofs.Scripts
import RequestFile.Proofs.Merging
import RequestFile.Proofs.Headers
import RequestFile.Proofs.Dump
import RequestFile.Proofs.Landing
