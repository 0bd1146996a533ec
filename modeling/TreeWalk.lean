import TreeWalk.Adapter
import TreeWalk.Children
import TreeWalk.CommandLine
import TreeWalk.Config
import TreeWalk.Console
import TreeWalk.Console.Cells
import TreeWalk.Console.Markup
import TreeWalk.Console.Outline
import TreeWalk.Console.StyleName
import TreeWalk.Console.Table
import TreeWalk.Console.Wrap
import TreeWalk.Context
import TreeWalk.Document
import TreeWalk.Failure
import TreeWalk.Files
import TreeWalk.Files.PathName
import TreeWalk.Form
import TreeWalk.Invocation
import TreeWalk.Json.Reader
import TreeWalk.Json.Writer
import TreeWalk.Log
import TreeWalk.Logged
import TreeWalk.Main
import TreeWalk.Numeric.Binary64
import TreeWalk.Numeric.FloatText
import TreeWalk.Numeric.Number
import TreeWalk.Numeric.Numeral
import TreeWalk.Numeric.Shortest
import TreeWalk.Packages
import TreeWalk.Program
import TreeWalk.Proofs.Accumulator
import TreeWalk.Proofs.ChildResults
import TreeWalk.Proofs.Conduct
import TreeWalk.Proofs.Consoles
import TreeWalk.Proofs.Course
import TreeWalk.Proofs.Declarations
import TreeWalk.Proofs.Documents
import TreeWalk.Proofs.EarlyFinish
import TreeWalk.Proofs.EncodedText
import TreeWalk.Proofs.Encodings
import TreeWalk.Proofs.Evaluation
import TreeWalk.Proofs.FoldFailures
import TreeWalk.Proofs.FoldedWalks
import TreeWalk.Proofs.GatheredLines
import TreeWalk.Proofs.Gathering
import TreeWalk.Proofs.History
import TreeWalk.Proofs.JsonDigits
import TreeWalk.Proofs.JsonReports
import TreeWalk.Proofs.JsonText
import TreeWalk.Proofs.JsonTokens
import TreeWalk.Proofs.LiteralText
import TreeWalk.Proofs.LoadedWalks
import TreeWalk.Proofs.Loading
import TreeWalk.Proofs.Locations
import TreeWalk.Proofs.LogLines
import TreeWalk.Proofs.LosslessReports
import TreeWalk.Proofs.MoreOperators
import TreeWalk.Proofs.MoreSkipped
import TreeWalk.Proofs.Names
import TreeWalk.Proofs.Outcome
import TreeWalk.Proofs.OutlineLines
import TreeWalk.Proofs.Preorder
import TreeWalk.Proofs.Printing
import TreeWalk.Proofs.Prune
import TreeWalk.Proofs.ReorderedWalks
import TreeWalk.Proofs.Reordering
import TreeWalk.Proofs.RestyledWalks
import TreeWalk.Proofs.Restyling
import TreeWalk.Proofs.ResultListing
import TreeWalk.Proofs.Route
import TreeWalk.Proofs.Run
import TreeWalk.Proofs.Schedule
import TreeWalk.Proofs.ScopeDrawing
import TreeWalk.Proofs.ScopeLedger
import TreeWalk.Proofs.ScopeOutline
import TreeWalk.Proofs.ScopeStore
import TreeWalk.Proofs.ScopeTree
import TreeWalk.Proofs.ScopeWalk
import TreeWalk.Proofs.Sessions
import TreeWalk.Proofs.Settings
import TreeWalk.Proofs.Sightings
import TreeWalk.Proofs.Simulation
import TreeWalk.Proofs.SkippedFields
import TreeWalk.Proofs.StandardReaders
import TreeWalk.Proofs.Statuses
import TreeWalk.Proofs.Subtrees
import TreeWalk.Proofs.Summaries
import TreeWalk.Proofs.TableLayout
import TreeWalk.Proofs.Tallies
import TreeWalk.Proofs.Terminals
import TreeWalk.Proofs.View
import TreeWalk.Proofs.Watching
import TreeWalk.Proofs.Wrapping
import TreeWalk.Readers
import TreeWalk.Report
import TreeWalk.Rules
import TreeWalk.Rules.Store
import TreeWalk.Source.Expression
import TreeWalk.Source.Fault
import TreeWalk.Source.Literal
import TreeWalk.Source.Statement
import TreeWalk.Source.Token
import TreeWalk.Standard
import TreeWalk.Step
import TreeWalk.Steps.Folding
import TreeWalk.Steps.Kinds
import TreeWalk.Steps.Scopes
import TreeWalk.Summary
import TreeWalk.Terminal
import TreeWalk.Text.Blank
import TreeWalk.Text.CharRanges
import TreeWalk.Text.Identifier
import TreeWalk.Text.Position
import TreeWalk.Text.Printable
import TreeWalk.Text.Quoted
import TreeWalk.Text.Utf8
import TreeWalk.Tree
import TreeWalk.Value
import TreeWalk.Value.Display
import TreeWalk.Value.Equality
import TreeWalk.Value.Order
import TreeWalk.Walk
import TreeWalk.Yaml.Document
import TreeWalk.Yaml.Error
import TreeWalk.Yaml.Node
import TreeWalk.Yaml.Scalar
import TreeWalk.Yaml.Tag
import TreeWalk.Yaml.Timestamp
import TreeWalk.Yaml.Token
