import Dialogue.Chunk
import Dialogue.CommandLine
import Dialogue.CommandLine.Arguments
import Dialogue.CommandLine.Config
import Dialogue.CommandLine.Outcome
import Dialogue.CommandLine.Summary
import Dialogue.Decimal.Shortest
import Dialogue.Diagnostic
import Dialogue.Diagnostic.Reader
import Dialogue.Document
import Dialogue.Document.Failure
import Dialogue.Emission
import Dialogue.Environment
import Dialogue.Failure
import Dialogue.Files.Memory
import Dialogue.Files.Provider
import Dialogue.Files.Tree
import Dialogue.Include.Request
import Dialogue.Include.Resolver
import Dialogue.Include.Shape
import Dialogue.Include.Stack
import Dialogue.Inclusion
import Dialogue.Inclusion.Shape
import Dialogue.Json
import Dialogue.Json.Parser
import Dialogue.Main
import Dialogue.Media.Detector
import Dialogue.Media.Essence
import Dialogue.Media.Extension
import Dialogue.Part
import Dialogue.Path
import Dialogue.Position
import Dialogue.Proofs.Chunk
import Dialogue.Proofs.Document.Agreement
import Dialogue.Proofs.Document.Coordinates
import Dialogue.Proofs.Document.Isolation
import Dialogue.Proofs.Emission
import Dialogue.Proofs.Environment.Agreement
import Dialogue.Proofs.Include.Cycle
import Dialogue.Proofs.Include.Depth
import Dialogue.Proofs.Include.Expansion
import Dialogue.Proofs.Include.Passage
import Dialogue.Proofs.Include.Trace
import Dialogue.Proofs.Path
import Dialogue.Proofs.Position
import Dialogue.Proofs.Script.Layout
import Dialogue.Proofs.Script.Layout.Call
import Dialogue.Proofs.Script.Layout.Expression
import Dialogue.Proofs.Script.Linked
import Dialogue.Proofs.Script.Linked.Access
import Dialogue.Proofs.Script.Linked.Library
import Dialogue.Proofs.Script.Linked.Operation
import Dialogue.Proofs.Script.Lockstep
import Dialogue.Proofs.Script.Parametric
import Dialogue.Proofs.Script.Parametric.Call
import Dialogue.Proofs.Script.Passage
import Dialogue.Proofs.Script.Block
import Dialogue.Proofs.Script.Reading
import Dialogue.Proofs.Script.Simplify
import Dialogue.Proofs.Script.Scoped
import Dialogue.Proofs.Script.Shift
import Dialogue.Proofs.Script.Undeclaring.Reading
import Dialogue.Proofs.Script.Undeclaring.Simplify
import Dialogue.Proofs.Transcript.Coordinates
import Dialogue.Reference
import Dialogue.Script.Access
import Dialogue.Script.Call
import Dialogue.Script.Evaluator
import Dialogue.Script.Fault
import Dialogue.Script.Lexer
import Dialogue.Script.Library
import Dialogue.Script.Library.Collection
import Dialogue.Script.Library.Number
import Dialogue.Script.Library.Outcome
import Dialogue.Script.Library.Text
import Dialogue.Script.Machine
import Dialogue.Script.Operation
import Dialogue.Script.Operator
import Dialogue.Script.Parser
import Dialogue.Script.Purity
import Dialogue.Script.Run
import Dialogue.Script.Simplify
import Dialogue.Script.Syntax
import Dialogue.Script.SyntaxError
import Dialogue.Script.Token
import Dialogue.Script.Value
import Dialogue.Segment
import Dialogue.Text.Base64
import Dialogue.Text.Blank
import Dialogue.Text.Case
import Dialogue.Text.Percent
import Dialogue.Text.Printable
import Dialogue.Text.Quoted
import Dialogue.Text.Split
import Dialogue.Text.Utf8
import Dialogue.Toml
import Dialogue.Transcript
import Dialogue.Proofs.Reference.Body
import Dialogue.Proofs.Reference.Search
import Dialogue.Proofs.Chunk.Locality
import Dialogue.Proofs.Include.Binary
import Dialogue.Proofs.Text.Lines
import Dialogue.Proofs.Transcript.RoundTrip
import Dialogue.Proofs.Transcript.Growth
import Dialogue.Proofs.Include.Independence
import Dialogue.Proofs.Document.Draining
import Dialogue.Proofs.Document.Course
import Dialogue.Proofs.Include.Leaves
import Dialogue.Proofs.CommandLine.Quiet
import Dialogue.Proofs.Chunk.Demand
import Dialogue.Proofs.Environment.History
import Dialogue.Proofs.Include.Scope
import Dialogue.Proofs.Script.Genuine
import Dialogue.Proofs.Script.Genuine.Library
import Dialogue.Proofs.Script.Genuine.Call
import Dialogue.Proofs.Script.Genuine.Evaluator
import Dialogue.Proofs.Script.Genuine.Reading
import Dialogue.Proofs.Script.Genuine.Simplify
import Dialogue.Proofs.Include.Lifting
import Dialogue.Proofs.Environment.Genuine
import Dialogue.Proofs.Include.Report
import Dialogue.Proofs.Segment
import Dialogue.Proofs.Text.Spelling
import Dialogue.Proofs.Chunk.Escaped
import Dialogue.Proofs.Json.Grammar
import Dialogue.Proofs.Json.Reading
import Dialogue.Proofs.CommandLine.Streams
import Dialogue.Proofs.Part
import Dialogue.Proofs.Files.Memory
import Dialogue.Proofs.Path.Join
import Dialogue.Proofs.Include.Directory
import Dialogue.Proofs.Script.Scoped.Reading
import Dialogue.Proofs.Script.Scoped.Simplify
import Dialogue.Proofs.Script.Scoped.Machine
import Dialogue.Proofs.Script.Scoped.Call
import Dialogue.Proofs.Script.Scoped.Evaluator
import Dialogue.Proofs.Environment.Bindings
import Dialogue.Proofs.Environment.Functions
import Dialogue.Proofs.Environment.Remnants
import Dialogue.Proofs.Document.Sight
import Dialogue.Text.Slice
import Dialogue.Reference.Span
import Dialogue.Chunk.Scanner
import Dialogue.Proofs.Text.Slice
import Dialogue.Proofs.Position.Order
import Dialogue.Proofs.Diagnostic
import Dialogue.Proofs.Reference.Span
import Dialogue.Proofs.Chunk.Scanner
import Dialogue.Proofs.Include.Foreign
import Dialogue.Proofs.Document.Naming
